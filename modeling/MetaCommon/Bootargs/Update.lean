import MetaCommon.Lib.Words

/-!
# The reset reason in the kernel command line

`update_bootargs_cmd` sets a key to a value in the `bootargs` of the environment. It works on the
text with `strstr` and `strchr`. On the words of the text it replaces the first word that has the
key with its equals sign in it, if it begins with them, and appends a word otherwise.
-/

namespace MetaCommon.Bootargs

open Words

abbrev Text := List Char

def strstr (haystack needle : Text) : Option ℕ := firstAt needle haystack

def strchr (s : Text) (c : Char) : Option ℕ := s.idxOf? c

/-- `comp_key`, which is an array of 128 characters. -/
def compKey (key : Text) : Text := (key ++ ['=']).take 127

/-- What the call leaves: the variable, the size of the buffer that it has allocated, and how far
each of its writes into the buffer goes. -/
structure Result where
  bootargs : Option Text
  bufLen : ℕ
  writes : List ℕ
deriving DecidableEq

/-- The text that `snprintf` stores, which is cut off to the size it is given. -/
def snprintf (size : ℕ) (text : Text) : Text := text.take (size - 1)

def snprintfEnd (size : ℕ) (text : Text) : ℕ := min (text.length + 1) size

/-- The last `snprintf` of the call and `env_set`, after a write of `copied` characters. -/
def setBootargs (bufLen copied : ℕ) (text : Text) : Result :=
  ⟨some (snprintf bufLen text), bufLen, [copied, snprintfEnd bufLen text]⟩

/-- `malloc` tells whether there is memory. The result is `none` where `strlen` gets a null
pointer, which comes before the test of `cmdline`. -/
def updateBootargsCmd (malloc : Bool) (bootargs : Option Text) (key value : Option Text) :
    Option Result :=
  match key with
  | none | some [] => some ⟨bootargs, 0, []⟩
  | some key =>
    match bootargs with
    | none => none
    | some cmdline =>
      let bufLen := match value with
        | some value => cmdline.length + key.length + 3 + value.length
        | none => cmdline.length + key.length + 3
      if malloc = false then some ⟨some cmdline, 0, []⟩
      else
        let value := value.getD []
        match strstr cmdline (compKey key) with
        | some start =>
          if start = 0 ∨ cmdline[start - 1]? = some ' ' then
            let buf := cmdline.take start
            match strchr (cmdline.drop start) ' ' with
            | some stop => some (setBootargs bufLen start
                (buf ++ key ++ '=' :: value ++ ' ' :: cmdline.drop (start + stop + 1)))
            | none => some (setBootargs bufLen start (buf ++ key ++ '=' :: value))
          else some (setBootargs bufLen 0 (cmdline ++ ' ' :: key ++ '=' :: value))
        | none => some (setBootargs bufLen 0 (cmdline ++ ' ' :: key ++ '=' :: value))

/-! ### The text of the command line -/

def token (key value : Text) : Text := key ++ '=' :: value

/-- The new text before it is cut off to the size of the buffer. -/
def replaced (comp new cmdline : Text) : Text :=
  match firstAt comp cmdline with
  | some start =>
    if start = 0 ∨ cmdline[start - 1]? = some ' ' then
      cmdline.take start ++ new ++ (cmdline.drop start).dropWhile (· ≠ ' ')
    else cmdline ++ ' ' :: new
  | none => cmdline ++ ' ' :: new

theorem dropWhile_of_strchr {s : Text} {stop : ℕ} (h : strchr s ' ' = some stop) :
    s.dropWhile (· ≠ ' ') = ' ' :: s.drop (stop + 1) := by
  induction s generalizing stop with
  | nil => exact absurd h (by simp [strchr])
  | cons c s ih =>
    rw [strchr, List.idxOf?_cons] at h
    by_cases hc : c = ' '
    · rw [if_pos (by simpa using hc)] at h
      obtain rfl : 0 = stop := Option.some.inj h
      simp [hc]
    · rw [if_neg (by simpa using hc)] at h
      obtain ⟨i, hi, rfl⟩ := Option.map_eq_some_iff.mp h
      rw [List.dropWhile_cons_of_pos (by simpa using hc), ih hi, List.drop_succ_cons]

theorem dropWhile_of_notMem {s : Text} (h : ' ' ∉ s) : s.dropWhile (· ≠ ' ') = [] := by
  induction s with
  | nil => rfl
  | cons c s ih =>
    obtain ⟨hc, hs⟩ := not_or.mp (List.mem_cons.not.mp h)
    rw [List.dropWhile_cons_of_pos (by simpa using Ne.symm hc), ih hs]

/-- With a key and memory, the call stores the replaced text. -/
theorem updateBootargsCmd_eq {key : Text} (hkey : key ≠ []) (cmdline : Text) (value : Option Text) :
    ∃ copied ≤ cmdline.length,
      updateBootargsCmd true (some cmdline) (some key) value =
        some (setBootargs (cmdline.length + key.length + 3 + (value.getD []).length) copied
          (replaced (compKey key) (token key (value.getD [])) cmdline)) := by
  obtain ⟨k, ks, rfl⟩ := List.exists_cons_of_ne_nil hkey
  have hlen : (match value with
      | some value => cmdline.length + (k :: ks).length + 3 + value.length
      | none => cmdline.length + (k :: ks).length + 3) =
      cmdline.length + (k :: ks).length + 3 + (value.getD []).length := by
    cases value <;> rfl
  unfold updateBootargsCmd replaced
  simp only [hlen, strstr, Bool.true_eq_false, if_false]
  cases hat : firstAt (compKey (k :: ks)) cmdline with
  | none => exact ⟨0, Nat.zero_le _, by simp [token]⟩
  | some start =>
    dsimp only
    by_cases hstart : start = 0 ∨ cmdline[start - 1]? = some ' '
    · have hne : compKey (k :: ks) ≠ [] := by simp [compKey]
      refine ⟨start, Nat.le_of_lt (firstAt_lt_of_not_nil hne hat), ?_⟩
      rw [if_pos hstart, if_pos hstart]
      cases hstop : strchr (cmdline.drop start) ' ' with
      | none =>
        rw [dropWhile_of_notMem (List.idxOf?_eq_none_iff.mp hstop)]
        simp [token]
      | some stop =>
        rw [dropWhile_of_strchr hstop, List.drop_drop]
        simp [token, Nat.add_assoc]
    · rw [if_neg hstart, if_neg hstart]
      exact ⟨0, Nat.zero_le _, by simp [token]⟩

theorem length_replaced_le (comp new cmdline : Text) :
    (replaced comp new cmdline).length ≤ cmdline.length + 1 + new.length := by
  have happend : (cmdline ++ ' ' :: new).length = cmdline.length + 1 + new.length := by
    rw [List.length_append, List.length_cons]
    omega
  unfold replaced
  split
  · split_ifs
    · rename_i start _ _
      have htake : (cmdline.take start).length + (cmdline.drop start).length = cmdline.length := by
        rw [← List.length_append, List.take_append_drop]
      have hdrop : ((cmdline.drop start).dropWhile (· ≠ ' ')).length ≤
          (cmdline.drop start).length := (List.dropWhile_suffix _).length_le
      rw [List.length_append, List.length_append]
      omega
    · exact Nat.le_of_eq happend
  · exact Nat.le_of_eq happend

/-! ### The words of the command line -/

def replaceWord (comp new : Text) : List Text → List Text
  | [] => [new]
  | w :: ws =>
    if comp <:+: w then if comp <+: w then new :: ws else w :: (ws ++ [new])
    else w :: replaceWord comp new ws

variable {comp new : Text}

theorem replaced_of_absent {cmdline : Text} (h : ¬ comp <:+: cmdline) :
    replaced comp new cmdline = cmdline ++ ' ' :: new := by
  rw [replaced, firstAt_eq_none_iff.mpr h]

theorem replaced_at_start {cmdline : Text} (h : comp <+: cmdline) :
    replaced comp new cmdline = new ++ cmdline.dropWhile (· ≠ ' ') := by
  rw [replaced, firstAt_start h]
  simp

/-- In the first word, but not at its start. -/
theorem replaced_of_inside {w cmdline : Text} (hw : ' ' ∉ w) (hin : comp <:+: w)
    (hpre : ¬ comp <+: w) (hat : firstAt comp cmdline = firstAt comp w) (hline : w <+: cmdline) :
    replaced comp new cmdline = cmdline ++ ' ' :: new := by
  have hne : comp ≠ [] := fun h => hpre (h ▸ List.nil_prefix)
  cases hstart : firstAt comp w with
  | none => exact absurd hin (firstAt_eq_none_iff.mp hstart)
  | some start =>
    have hpos : start ≠ 0 := fun h => hpre (firstAt_eq_zero_iff.mp (h ▸ hstart))
    have hlt : start - 1 < w.length := by
      have := firstAt_lt_of_not_nil hne hstart
      omega
    have hinside : ¬ (start = 0 ∨ cmdline[start - 1]? = some ' ') := by
      rintro (h | h)
      · exact hpos h
      · obtain ⟨t, rfl⟩ := hline
        rw [List.getElem?_append_left hlt] at h
        exact hw (List.mem_of_getElem? h)
    rw [replaced, hat, hstart]
    exact if_neg hinside

theorem replaced_append_absent {w : Text} (hcomp : ' ' ∉ comp) (hw : ¬ comp <:+: w)
    (cmdline : Text) :
    replaced comp new (w ++ ' ' :: cmdline) = w ++ ' ' :: replaced comp new cmdline := by
  have hlen : (w ++ [' ']).length = w.length + 1 := by simp
  have hcons : w ++ ' ' :: cmdline = (w ++ [' ']) ++ cmdline := by simp
  unfold replaced
  rw [firstAt_append_outside hcomp hw]
  cases firstAt comp cmdline with
  | none => simp
  | some start =>
    have hbefore : start + (w.length + 1) = 0 ∨
        (w ++ ' ' :: cmdline)[start + (w.length + 1) - 1]? = some ' ' ↔
        start = 0 ∨ cmdline[start - 1]? = some ' ' := by
      cases start with
      | zero => simp
      | succ start =>
        have hidx : start + 1 + (w.length + 1) - 1 - (w.length + 1) = start := by omega
        rw [hcons, List.getElem?_append_right (by rw [hlen]; omega), hlen, hidx]
        simp
    have htake : (w ++ ' ' :: cmdline).take (start + (w.length + 1)) =
        w ++ ' ' :: cmdline.take start := by
      rw [hcons, Nat.add_comm, ← hlen, List.take_length_add_append]
      simp
    have hdrop : (w ++ ' ' :: cmdline).drop (start + (w.length + 1)) = cmdline.drop start := by
      rw [hcons, Nat.add_comm, ← hlen, List.drop_length_add_append]
    simp only [Option.map_some, hbefore, htake, hdrop]
    split_ifs <;> simp

/-- On words, the text is replaced word by word. -/
theorem splitOn_replaced (hcomp : ' ' ∉ comp) (hnew : ' ' ∉ new) (cmdline : Text) :
    (replaced comp new cmdline).splitOn ' ' = replaceWord comp new (cmdline.splitOn ' ') := by
  have happend : ∀ s : Text, (s ++ ' ' :: new).splitOn ' ' = s.splitOn ' ' ++ [new] := fun s => by
    rw [List.splitOn_append_cons_self, List.splitOn_eq_singleton hnew]
  induction cmdline using word_induction ' ' with
  | word w hw =>
    rw [List.splitOn_eq_singleton hw, replaceWord]
    by_cases hin : comp <:+: w
    · by_cases hpre : comp <+: w
      · rw [if_pos hin, if_pos hpre, replaced_at_start hpre, dropWhile_of_notMem hw,
          List.append_nil, List.splitOn_eq_singleton hnew]
      · rw [if_pos hin, if_neg hpre, replaced_of_inside hw hin hpre rfl List.prefix_rfl, happend,
          List.splitOn_eq_singleton hw]
        rfl
    · rw [if_neg hin, replaced_of_absent hin, happend, List.splitOn_eq_singleton hw]
      rfl
  | cons w rest hw ih =>
    rw [List.splitOn_append_cons_self_of_not_mem hw, replaceWord]
    by_cases hin : comp <:+: w
    · by_cases hpre : comp <+: w
      · have htail : (w ++ ' ' :: rest).dropWhile (· ≠ ' ') = ' ' :: rest := by
          rw [List.dropWhile_append_of_pos, List.dropWhile_cons_of_neg (by simp)]
          intro c hc
          have hne : c ≠ ' ' := fun h => hw (h ▸ hc)
          simpa using hne
        rw [if_pos hin, if_pos hpre, replaced_at_start (hpre.trans (List.prefix_append _ _)),
          htail, List.splitOn_append_cons_self_of_not_mem hnew]
      · rw [if_pos hin, if_neg hpre, replaced_of_inside hw hin hpre
          (firstAt_append_inside hcomp hin) (List.prefix_append _ _), happend,
          List.splitOn_append_cons_self_of_not_mem hw]
        rfl
    · rw [if_neg hin, replaced_append_absent hcomp hin,
        List.splitOn_append_cons_self_of_not_mem hw, ih]

/-! ### What the call is for -/

def HasKey (key w : Text) : Prop := key ++ ['='] <+: w

instance (key : Text) : DecidablePred (HasKey key) := fun w =>
  inferInstanceAs (Decidable (key ++ ['='] <+: w))

def words : Option Text → List Text
  | some cmdline => cmdline.splitOn ' '
  | none => []

/-- One word has the key, with the value, the other words are as before, and the buffer was large
enough. -/
structure Updates (key value : Text) (before : Option Text) (r : Result) : Prop where
  isSome : r.bootargs.isSome
  one : (words r.bootargs).filter (HasKey key) = [token key value]
  others : (words r.bootargs).filter (¬ HasKey key ·) = (words before).filter (¬ HasKey key ·)
  inside : ∀ stop ∈ r.writes, stop ≤ r.bufLen

/-- What the call is to do, and a second call is to change nothing. -/
def Sound (malloc : Bool) (bootargs : Option Text) (key : Text) (value : Option Text) : Prop :=
  ∃ r, updateBootargsCmd malloc bootargs (some key) value = some r ∧
    Updates key (value.getD []) bootargs r ∧
    (updateBootargsCmd malloc r.bootargs (some key) value).map Result.bootargs = some r.bootargs

/-- When it does so. Without a key or without memory the call does nothing, and the line has to be
right already. -/
def Settable (malloc : Bool) (bootargs : Option Text) (key : Text) (value : Option Text) : Prop :=
  bootargs.isSome ∧
  if key = [] ∨ malloc = false then
    (words bootargs).filter (HasKey key) = [token key (value.getD [])]
  else
    ' ' ∉ token key (value.getD []) ∧
    ((words bootargs).filter (HasKey key)).length ≤ 1 ∧
    ∀ w, (words bootargs).find? (compKey key <:+: ·) = some w → HasKey key w

/-- The words of a line that is set twice. -/
theorem replaceWord_settled_iff {key : Text} (hcomp : comp <+: key ++ ['=']) (hnew : HasKey key new)
    (ws : List Text) :
    ((replaceWord comp new ws).filter (HasKey key) = [new] ∧
      (replaceWord comp new ws).filter (¬ HasKey key ·) = ws.filter (¬ HasKey key ·) ∧
      replaceWord comp new (replaceWord comp new ws) = replaceWord comp new ws) ↔
    (ws.filter (HasKey key)).length ≤ 1 ∧
      ∀ w, ws.find? (comp <:+: ·) = some w → HasKey key w := by
  have hpre : comp <+: new := hcomp.trans hnew
  induction ws with
  | nil => simp [replaceWord, hnew, hpre, hpre.isInfix]
  | cons w ws ih =>
    by_cases hin : comp <:+: w
    · rw [List.find?_cons_of_pos (by simpa using hin)]
      by_cases hstart : comp <+: w
      · have hfirst : replaceWord comp new (w :: ws) = new :: ws := by
          rw [replaceWord, if_pos hin, if_pos hstart]
        have hsecond : replaceWord comp new (new :: ws) = new :: ws := by
          rw [replaceWord, if_pos hpre.isInfix, if_pos hpre]
        rw [hfirst, hsecond]
        by_cases hkey : HasKey key w <;> simp [hkey, hnew]
      · have hkey : ¬ HasKey key w := fun h =>
          hstart (List.prefix_of_prefix_length_le (hcomp.trans h) List.prefix_rfl hin.length_le)
        have hstep : ∀ us, replaceWord comp new (w :: us) = w :: (us ++ [new]) := fun us => by
          rw [replaceWord, if_pos hin, if_neg hstart]
        refine iff_of_false (fun h => ?_) (fun h => hkey (h.2 w rfl))
        rw [hstep, hstep] at h
        simpa using congrArg List.length h.2.2
    · have hkey : ¬ HasKey key w := fun h => hin (hcomp.trans h).isInfix
      have hstep : ∀ us, replaceWord comp new (w :: us) = w :: replaceWord comp new us := fun us =>
        if_neg hin
      rw [List.find?_cons_of_neg (by simpa using hin), hstep, hstep]
      simpa [hkey] using ih

theorem hasKey_token (key value : Text) : HasKey key (token key value) :=
  ⟨value, by simp [token]⟩

theorem compKey_prefix_key (key : Text) : compKey key <+: key ++ ['='] := List.take_prefix 127 _

theorem setBootargs_replaced (comp : Text) {bufLen copied : ℕ} {cmdline : Text}
    (hcopied : copied ≤ cmdline.length) (hlen : cmdline.length + 2 + new.length ≤ bufLen) :
    (setBootargs bufLen copied (replaced comp new cmdline)).bootargs =
      some (replaced comp new cmdline) ∧
    ∀ stop ∈ (setBootargs bufLen copied (replaced comp new cmdline)).writes, stop ≤ bufLen := by
  have hle := length_replaced_le comp new cmdline
  refine ⟨congrArg some (List.take_of_length_le (by omega)), ?_⟩
  simp only [setBootargs, snprintfEnd, List.mem_cons, List.not_mem_nil, or_false, forall_eq_or_imp,
    forall_eq]
  exact ⟨by omega, Nat.min_le_right _ _⟩

/-- With a key, memory and a line, the call leaves the replaced line, within its buffer. -/
theorem updateBootargsCmd_replaced {key : Text} (hkey : key ≠ []) (cmdline : Text)
    (value : Option Text) :
    ∃ r, updateBootargsCmd true (some cmdline) (some key) value = some r ∧
      r.bootargs = some (replaced (compKey key) (token key (value.getD [])) cmdline) ∧
      ∀ stop ∈ r.writes, stop ≤ r.bufLen := by
  obtain ⟨copied, hcopied, hr⟩ := updateBootargsCmd_eq hkey cmdline value
  have htoken : (token key (value.getD [])).length = key.length + 1 + (value.getD []).length := by
    rw [token, List.length_append, List.length_cons]
    omega
  obtain ⟨hline, hwrites⟩ := setBootargs_replaced (compKey key) hcopied
    (show cmdline.length + 2 + (token key (value.getD [])).length ≤
      cmdline.length + key.length + 3 + (value.getD []).length by omega)
  exact ⟨_, hr, hline, hwrites⟩

theorem updateBootargsCmd_declined {malloc : Bool} {key : Text} (h : key = [] ∨ malloc = false)
    (cmdline : Text) (value : Option Text) :
    updateBootargsCmd malloc (some cmdline) (some key) value = some ⟨some cmdline, 0, []⟩ := by
  cases key with
  | nil => rfl
  | cons k ks =>
    obtain rfl : malloc = false := h.resolve_left (List.cons_ne_nil k ks)
    rfl

theorem sound_of_declined {malloc : Bool} {key : Text} (h : key = [] ∨ malloc = false)
    (cmdline : Text) (value : Option Text) :
    Sound malloc (some cmdline) key value ↔
      (cmdline.splitOn ' ').filter (HasKey key) = [token key (value.getD [])] := by
  have hcall := updateBootargsCmd_declined h cmdline value
  constructor
  · rintro ⟨r, hr, hup, -⟩
    obtain rfl := Option.some.inj (hcall.symm.trans hr)
    exact hup.one
  · intro hone
    refine ⟨_, hcall, ⟨rfl, hone, rfl, fun stop hstop => absurd hstop List.not_mem_nil⟩, ?_⟩
    rw [hcall]
    rfl

/-- What is asked of the line is asked of the replacement in it. -/
theorem sound_iff_replaced {key : Text} (hkey : key ≠ []) (cmdline : Text) (value : Option Text)
    {new : Text} (hnew : token key (value.getD []) = new) :
    Sound true (some cmdline) key value ↔
      ((replaced (compKey key) new cmdline).splitOn ' ').filter (HasKey key) = [new] ∧
      ((replaced (compKey key) new cmdline).splitOn ' ').filter (¬ HasKey key ·) =
        (cmdline.splitOn ' ').filter (¬ HasKey key ·) ∧
      replaced (compKey key) new (replaced (compKey key) new cmdline) =
        replaced (compKey key) new cmdline := by
  obtain ⟨r, hr, hline, hwrites⟩ := updateBootargsCmd_replaced hkey cmdline value
  rw [hnew] at hline
  obtain ⟨r', hr', hline', -⟩ :=
    updateBootargsCmd_replaced hkey (replaced (compKey key) new cmdline) value
  rw [hnew] at hline'
  constructor
  · rintro ⟨q, hq, hup, htwice⟩
    obtain rfl := Option.some.inj (hr.symm.trans hq)
    have hone := hup.one
    have hothers := hup.others
    rw [hline, hnew] at hone
    rw [hline] at hothers
    rw [hline, hr', Option.map_some, hline'] at htwice
    exact ⟨hone, hothers, Option.some.inj (Option.some.inj htwice)⟩
  · rintro ⟨hone, hothers, htwice⟩
    refine ⟨r, hr, ⟨by rw [hline]; rfl, ?_, ?_, hwrites⟩, ?_⟩
    · rw [hline, hnew]
      exact hone
    · rw [hline]
      exact hothers
    · rw [hline, hr', Option.map_some, hline', htwice]

theorem sound_of_key {key : Text} (hkey : key ≠ []) (cmdline : Text) (value : Option Text) :
    Sound true (some cmdline) key value ↔
      ' ' ∉ token key (value.getD []) ∧ ((cmdline.splitOn ' ').filter (HasKey key)).length ≤ 1 ∧
        ∀ w, (cmdline.splitOn ' ').find? (compKey key <:+: ·) = some w → HasKey key w := by
  rw [sound_iff_replaced hkey cmdline value rfl]
  generalize hnew : token key (value.getD []) = new
  by_cases hsp : ' ' ∈ new
  · refine iff_of_false (fun h => ?_) (fun h => h.1 hsp)
    have hmem : new ∈ ((replaced (compKey key) new cmdline).splitOn ' ').filter (HasKey key) :=
      h.1 ▸ List.mem_singleton_self new
    exact sep_notMem_of_mem_splitOn (List.mem_filter.mp hmem).1 hsp
  · have hhas : HasKey key new := hnew ▸ hasKey_token key _
    have hcomp : ' ' ∉ compKey key := fun h =>
      hsp (hhas.subset ((compKey_prefix_key key).subset h))
    have hwords := splitOn_replaced hcomp hsp cmdline
    rw [← splitOn_inj ' ', splitOn_replaced hcomp hsp (replaced (compKey key) new cmdline),
      hwords, replaceWord_settled_iff (compKey_prefix_key key) hhas]
    simp [hsp]

/-- Exactly when the call sets the key, changes nothing else and can be repeated. -/
theorem sound_iff_settable (malloc : Bool) (bootargs : Option Text) (key : Text)
    (value : Option Text) :
    Sound malloc bootargs key value ↔ Settable malloc bootargs key value := by
  cases bootargs with
  | none =>
    refine iff_of_false ?_ (fun h => absurd h.1 (by decide))
    rintro ⟨r, hr, hup, -⟩
    have hsome := hup.isSome
    cases key with
    | nil =>
      obtain rfl := Option.some.inj hr
      exact absurd hsome (by decide)
    | cons k ks => exact absurd hr (by simp [updateBootargsCmd])
  | some cmdline =>
    unfold Settable
    by_cases hdecl : key = [] ∨ malloc = false
    · rw [if_pos hdecl, sound_of_declined hdecl]
      exact (and_iff_right rfl).symm
    · rw [if_neg hdecl]
      obtain ⟨hkey, hmalloc⟩ := not_or.mp hdecl
      obtain rfl : malloc = true := by simpa using hmalloc
      rw [sound_of_key hkey]
      exact (and_iff_right rfl).symm

/-- The first occurrence of the key is in another word. -/
theorem not_sound_suffix :
    ¬ Sound true (some "xresetreason=1 resetreason=2".toList) "resetreason".toList
      (some "0x8".toList) := by
  rintro ⟨r, hr, hup, -⟩
  obtain rfl := Option.some.inj hr
  exact absurd hup.one (by decide)

end MetaCommon.Bootargs
