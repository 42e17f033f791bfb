import Mathlib.Data.List.Sort
import MetaCommon.Lib.Runs

/-!
# Flat sets and loops over them

A flat set keeps its elements in one buffer, in the order of their keys. A loop over it remembers
where the elements began and ended at its start, and its body may insert into the set or erase from
it. `forEach` is `none` where the loop goes on after its buffer was given up for a larger one, or
comes to a place that no longer holds an element.

A body that inserts for some elements a successor with a larger key meets the elements of the set it
is about to make, `grown`, in their order. So it inserts what it should exactly if each of the
elements it inserts for has its place among the first ones.
-/

structure FlatSet {α κ : Type*} [LinearOrder κ] (key : α → κ) where
  entries : List α
  capacity : ℕ
  sorted : entries.Pairwise fun a b => key a < key b
  fits : entries.length ≤ capacity

namespace FlatSet

variable {α κ : Type*} [LinearOrder κ] {key : α → κ}

def keys (s : FlatSet key) : List κ := s.entries.map key

theorem mem_keys {s : FlatSet key} {k : κ} : k ∈ s.keys ↔ ∃ x ∈ s.entries, key x = k :=
  List.mem_map

theorem mem_keys_of_mem {s : FlatSet key} {x : α} (hx : x ∈ s.entries) : key x ∈ s.keys :=
  List.mem_map_of_mem hx

theorem eq_of_mem_of_sorted {l l' : List α} (hl : l.Pairwise fun a b => key a < key b)
    (hl' : l'.Pairwise fun a b => key a < key b) (h : ∀ x, x ∈ l ↔ x ∈ l') : l = l' := by
  have : Std.Antisymm fun a b : α => key a < key b := ⟨fun a b hab hba => (hab.asymm hba).elim⟩
  have : Std.Irrefl fun a b : α => key a < key b := ⟨fun a => lt_irrefl (key a)⟩
  exact hl.eq_of_mem_iff hl' h

theorem nodup_entries (s : FlatSet key) : s.entries.Nodup :=
  s.sorted.imp fun h heq => h.ne (congrArg key heq)

theorem eq_of_key_eq {s : FlatSet key} {x y : α} (hx : x ∈ s.entries) (hy : y ∈ s.entries)
    (h : key x = key y) : x = y := by
  have hnodup : (s.entries.map key).Nodup := List.pairwise_map.mpr (s.sorted.imp fun h => h.ne)
  exact List.inj_on_of_nodup_map hnodup hx hy h

/-- The place of the new element is behind all smaller ones. -/
def insertEntry (key : α → κ) (x : α) (l : List α) : List α :=
  l.orderedInsert (fun a b => key a ≤ key b) x

theorem mem_insertEntry {x y : α} {l : List α} : y ∈ insertEntry key x l ↔ y = x ∨ y ∈ l :=
  List.mem_orderedInsert _

theorem length_insertEntry (x : α) (l : List α) :
    (insertEntry key x l).length = l.length + 1 := List.orderedInsert_length _ _ _

theorem sorted_insertEntry {x : α} {l : List α} (hl : l.Pairwise fun a b => key a < key b)
    (hx : key x ∉ l.map key) : (insertEntry key x l).Pairwise fun a b => key a < key b := by
  induction l with
  | nil => exact List.pairwise_singleton _ _
  | cons y l ih =>
    obtain ⟨hy, hl⟩ := List.pairwise_cons.mp hl
    rw [List.map_cons, List.mem_cons, not_or] at hx
    unfold insertEntry
    rw [List.orderedInsert_cons]
    split_ifs with hle
    · have hlt : key x < key y := lt_of_le_of_ne hle hx.1
      refine List.pairwise_cons.mpr ⟨fun z hz => ?_, List.pairwise_cons.mpr ⟨hy, hl⟩⟩
      rcases List.mem_cons.mp hz with rfl | hz
      · exact hlt
      · exact hlt.trans (hy z hz)
    · refine List.pairwise_cons.mpr ⟨fun z hz => ?_, ih hl hx.2⟩
      rcases mem_insertEntry.mp hz with rfl | hz
      · exact lt_of_not_ge hle
      · exact hy z hz

/-- A new element is inserted unless there is one with its key. `grow` says how much room a full
buffer gets. -/
def emplace (grow : ℕ → ℕ) (s : FlatSet key) (x : α) : FlatSet key :=
  if hx : key x ∈ s.keys then s
  else
    { entries := insertEntry key x s.entries
      capacity := if s.entries.length < s.capacity then s.capacity
        else max (s.entries.length + 1) (grow s.capacity)
      sorted := sorted_insertEntry s.sorted hx
      fits := by
        rw [length_insertEntry]
        split_ifs with h
        · omega
        · exact le_max_left _ _ }

def erase (s : FlatSet key) (k : κ) : FlatSet key where
  entries := s.entries.filter fun x => key x ≠ k
  capacity := s.capacity
  sorted := s.sorted.filter _
  fits := (List.length_filter_le _ _).trans s.fits

variable {grow : ℕ → ℕ} {s : FlatSet key} {x y : α}

theorem emplace_of_mem (hx : key x ∈ s.keys) : s.emplace grow x = s := dif_pos hx

theorem mem_emplace (hx : key x ∉ s.keys) :
    y ∈ (s.emplace grow x).entries ↔ y = x ∨ y ∈ s.entries := by
  unfold emplace
  rw [dif_neg hx]
  exact mem_insertEntry

theorem length_emplace (hx : key x ∉ s.keys) :
    (s.emplace grow x).entries.length = s.entries.length + 1 := by
  unfold emplace
  rw [dif_neg hx]
  exact length_insertEntry _ _

theorem mem_emplace_of_mem (hy : y ∈ s.entries) : y ∈ (s.emplace grow x).entries := by
  by_cases hx : key x ∈ s.keys
  · rwa [emplace_of_mem hx]
  · exact (mem_emplace hx).mpr (.inr hy)

theorem capacity_emplace (h : (s.emplace grow x).entries.length ≤ s.capacity) :
    (s.emplace grow x).capacity = s.capacity := by
  by_cases hx : key x ∈ s.keys
  · rw [emplace_of_mem hx]
  · rw [length_emplace hx] at h
    unfold emplace
    rw [dif_neg hx]
    exact if_pos (by omega)

theorem mem_erase {k : κ} : y ∈ (s.erase k).entries ↔ y ∈ s.entries ∧ key y ≠ k := by
  simp [erase]

theorem length_erase_lt (hx : x ∈ s.entries) :
    (s.erase (key x)).entries.length < s.entries.length :=
  List.length_filter_lt_length_iff_exists.mpr ⟨x, hx, by simp⟩

section Loops

variable (key) in
/-- A loop under way: the set as it is, and whether it has left the buffer that the loop runs on. -/
structure Pass where
  set : FlatSet key
  moved : Bool

variable {body : FlatSet key → α → FlatSet key}

/-- The body has made the set leave its buffer if that had no room for what there is now. -/
def visit (body : FlatSet key → α → FlatSet key) (p : Pass key) (i : ℕ) : Option (Pass key) :=
  if p.moved then none
  else p.set.entries[i]?.map fun x =>
    ⟨body p.set x, decide (p.set.capacity < (body p.set x).entries.length)⟩

def forEach (body : FlatSet key → α → FlatSet key) (s : FlatSet key) : Option (FlatSet key) :=
  (Runs.exec (visit body) ⟨s, false⟩ (List.range s.entries.length)).map Pass.set

theorem visit_eq_some {p q : Pass key} {i : ℕ} :
    visit body p i = some q ↔ p.moved = false ∧ ∃ x, p.set.entries[i]? = some x ∧
      q = ⟨body p.set x, decide (p.set.capacity < (body p.set x).entries.length)⟩ := by
  unfold visit
  split_ifs with hmoved
  · simp [hmoved]
  · rw [Option.map_eq_some_iff]
    simp [hmoved, eq_comm]

theorem exec_visit_succ (p : Pass key) (i : ℕ) :
    Runs.exec (visit body) p (List.range (i + 1)) =
      (Runs.exec (visit body) p (List.range i)).bind fun q => visit body q i := by
  rw [List.range_succ, Runs.exec_append]
  simp only [Runs.exec_cons, Runs.exec_nil, Option.bind_fun_some]

/-! ### Erasing -/

def eraseIf (P : α → Prop) [DecidablePred P] (s : FlatSet key) (x : α) : FlatSet key :=
  if P x then s.erase (key x) else s

section Erase

variable {P : α → Prop} [DecidablePred P] {s s' : FlatSet key}

theorem length_eraseIf_le (x : α) : (eraseIf P s x).entries.length ≤ s.entries.length := by
  unfold eraseIf
  split_ifs
  · exact List.length_filter_le _ _
  · exact le_rfl

/-- A visit that leaves as many elements as there were has erased none. -/
theorem eraseIf_of_length_eq {x : α} (hx : x ∈ s.entries)
    (h : (eraseIf P s x).entries.length = s.entries.length) : ¬ P x ∧ eraseIf P s x = s := by
  unfold eraseIf at h ⊢
  by_cases hP : P x
  · rw [if_pos hP] at h
    exact absurd h (length_erase_lt hx).ne
  · exact ⟨hP, if_neg hP⟩

/-- As long as no element that is met is to be erased, the loop leaves the set as it is. -/
theorem exec_eraseIf_of_not {i : ℕ} (hi : i ≤ s.entries.length)
    (h : ∀ x ∈ s.entries.take i, ¬ P x) :
    Runs.exec (visit (eraseIf P)) ⟨s, false⟩ (List.range i) = some ⟨s, false⟩ := by
  induction i with
  | zero => rfl
  | succ i ih =>
    have hlt : i < s.entries.length := hi
    have htake : s.entries.take (i + 1) = s.entries.take i ++ [s.entries[i]] :=
      List.take_succ_eq_append_getElem hlt
    rw [htake] at h
    have hP : ¬ P s.entries[i] := h _ (List.mem_append_right _ (List.mem_singleton_self _))
    rw [exec_visit_succ, ih hlt.le fun x hx => h x (List.mem_append_left _ hx)]
    refine visit_eq_some.mpr ⟨rfl, s.entries[i], List.getElem?_eq_getElem hlt, ?_⟩
    simp [eraseIf, hP, s.fits]

/-- A loop that still finds as many elements as at its start has not erased any. -/
theorem not_of_exec_eraseIf {q : Pass key} {i : ℕ}
    (h : Runs.exec (visit (eraseIf P)) ⟨s, false⟩ (List.range i) = some q) :
    q.set.entries.length ≤ s.entries.length ∧
      (q.set.entries.length = s.entries.length →
        q.set = s ∧ ∀ j < i, ∀ x ∈ s.entries[j]?, ¬ P x) := by
  induction i generalizing q with
  | zero =>
    obtain rfl : ⟨s, false⟩ = q := Option.some.inj h
    exact ⟨le_rfl, fun _ => ⟨rfl, fun j hj => absurd hj (Nat.not_lt_zero j)⟩⟩
  | succ i ih =>
    rw [exec_visit_succ, Option.bind_eq_some_iff] at h
    obtain ⟨p, hp, hq⟩ := h
    obtain ⟨-, x, hx, rfl⟩ := visit_eq_some.mp hq
    obtain ⟨hle, hsame⟩ := ih hp
    have hstep : (eraseIf P p.set x).entries.length ≤ p.set.entries.length := length_eraseIf_le x
    refine ⟨hstep.trans hle, fun heq => ?_⟩
    obtain ⟨hset, hnot⟩ := hsame (le_antisymm hle (heq ▸ hstep))
    have hmem : x ∈ p.set.entries := List.mem_of_getElem? hx
    have hlen : (eraseIf P p.set x).entries.length = p.set.entries.length := by
      rw [hset] at heq ⊢
      exact heq
    obtain ⟨hPx, hkeep⟩ := eraseIf_of_length_eq hmem hlen
    refine ⟨hkeep.trans hset, fun j hj y hy => ?_⟩
    rcases Nat.lt_succ_iff_lt_or_eq.mp hj with hj | rfl
    · exact hnot j hj y hy
    · rw [hset] at hx
      obtain rfl : x = y := Option.some.inj (hx.symm.trans hy)
      exact hPx

/-- Once an element is erased the last place holds none, so only the last may be. -/
theorem forEach_eraseIf_isSome :
    (∃ s', forEach (eraseIf P) s = some s') ↔ ∀ x ∈ s.entries.dropLast, ¬ P x := by
  unfold forEach
  rw [List.dropLast_eq_take]
  cases hn : s.entries.length with
  | zero => simp
  | succ m =>
    constructor
    · rintro ⟨s', h⟩ x hx
      obtain ⟨q, hq, -⟩ := Option.map_eq_some_iff.mp h
      rw [exec_visit_succ, Option.bind_eq_some_iff] at hq
      obtain ⟨p, hp, hq⟩ := hq
      obtain ⟨-, y, hy, -⟩ := visit_eq_some.mp hq
      obtain ⟨hle, hsame⟩ := not_of_exec_eraseIf hp
      have hlt : m < p.set.entries.length := (List.getElem?_eq_some_iff.mp hy).1
      obtain ⟨j, hj, rfl⟩ := List.mem_take_iff_getElem.mp hx
      exact (hsame (by omega)).2 j (by omega) _ (List.getElem?_eq_getElem _)
    · intro h
      have hlt : m < s.entries.length := by omega
      rw [exec_visit_succ, exec_eraseIf_of_not hlt.le h]
      exact ⟨_, Option.map_eq_some_iff.mpr ⟨_, visit_eq_some.mpr
        ⟨rfl, s.entries[m], List.getElem?_eq_getElem hlt, rfl⟩, rfl⟩⟩

theorem mem_forEach_eraseIf (h : forEach (eraseIf P) s = some s') (x : α) :
    x ∈ s'.entries ↔ x ∈ s.entries ∧ ¬ P x := by
  have hnot := forEach_eraseIf_isSome.mp ⟨s', h⟩
  unfold forEach at h
  rw [List.dropLast_eq_take] at hnot
  cases hn : s.entries.length with
  | zero =>
    rw [hn] at h
    obtain rfl : s = s' := Option.some.inj h
    simp [List.length_eq_zero_iff.mp hn]
  | succ m =>
    have hlt : m < s.entries.length := by omega
    rw [hn] at h hnot
    rw [exec_visit_succ, exec_eraseIf_of_not hlt.le hnot] at h
    obtain ⟨q, hq, rfl⟩ := Option.map_eq_some_iff.mp h
    obtain ⟨-, y, hy, rfl⟩ := visit_eq_some.mp hq
    have hentries : s.entries = s.entries.take m ++ [y] := by
      have := List.take_succ_eq_append_getElem hlt
      rw [List.take_of_length_le (by omega)] at this
      rwa [(List.getElem?_eq_some_iff.mp hy).2] at this
    change x ∈ (eraseIf P s y).entries ↔ _
    have hcases : x ∈ s.entries ↔ x ∈ s.entries.take m ∨ x = y := by
      conv_lhs => rw [hentries]
      simp
    have hymem : y ∈ s.entries := List.mem_of_getElem? hy
    unfold eraseIf
    split_ifs with hP
    · rw [mem_erase]
      refine and_congr_right fun hx => ⟨fun hne hPx => ?_, fun hPx heq => ?_⟩
      · rcases hcases.mp hx with hx | rfl
        · exact hnot x hx hPx
        · exact hne rfl
      · exact hPx (eq_of_key_eq hx hymem heq ▸ hP)
    · refine ⟨fun hx => ⟨hx, ?_⟩, And.left⟩
      rcases hcases.mp hx with hx | rfl
      · exact hnot x hx
      · exact hP

end Erase

/-! ### Inserting successors -/

def emplaceNext (grow : ℕ → ℕ) (src : α → Option α) (s : FlatSet key) (x : α) : FlatSet key :=
  match src x with
  | some y => s.emplace grow y
  | none => s

/-- The successors of the elements have larger keys, none of their own, and tell what they are the
successors of. -/
structure Successor (src : α → Option α) (s : FlatSet key) : Prop where
  key_lt : ∀ {x y}, x ∈ s.entries → src x = some y → key x < key y
  last : ∀ {x y}, x ∈ s.entries → src x = some y → src y = none
  key_inj : ∀ {x x' y y'}, x ∈ s.entries → x' ∈ s.entries → src x = some y → src x' = some y' →
    key y = key y' → key x = key x'

/-- `x` has a successor, whose key is not in the set. -/
def Lacks (src : α → Option α) (s : FlatSet key) (x : α) : Prop := ∃ y ∈ src x, key y ∉ s.keys

instance (src : α → Option α) (s : FlatSet key) : DecidablePred (Lacks src s) := fun x =>
  match h : src x with
  | none => .isFalse fun ⟨_, hy, _⟩ => by simp [h] at hy
  | some y =>
    if hk : key y ∈ s.keys then .isFalse fun ⟨z, hz, hzk⟩ => by
      rw [h] at hz
      exact hzk (Option.some.inj hz ▸ hk)
    else .isTrue ⟨y, h, hk⟩

/-- The set with all successors that it lacks. -/
def grown (src : α → Option α) (s : FlatSet key) : FlatSet key :=
  (s.entries.filterMap src).foldl (emplace id) s

section Insert

variable {src : α → Option α} {s s' : FlatSet key}

theorem mem_foldl_emplace {ys : List α} (hys : ys.Pairwise fun a b => key a ≠ key b) {x : α} :
    x ∈ (ys.foldl (emplace grow) s).entries ↔ x ∈ s.entries ∨ x ∈ ys ∧ key x ∉ s.keys := by
  induction ys generalizing s with
  | nil => simp
  | cons y ys ih =>
    obtain ⟨hy, hys⟩ := List.pairwise_cons.mp hys
    rw [List.foldl_cons, ih hys]
    by_cases hk : key y ∈ s.keys
    · rw [emplace_of_mem hk]
      grind
    · have hkeys : ∀ z, key z ∈ (s.emplace grow y).keys ↔ key z = key y ∨ key z ∈ s.keys := by
        intro z
        simp only [mem_keys, mem_emplace hk]
        grind
      rw [mem_emplace hk, hkeys]
      grind

theorem mem_grown (hsrc : Successor src s) {x : α} :
    x ∈ (grown src s).entries ↔ x ∈ s.entries ∨ ∃ m ∈ s.entries, src m = some x ∧ Lacks src s m := by
  have hys : (s.entries.filterMap src).Pairwise fun a b => key a ≠ key b := by
    refine List.pairwise_filterMap.mpr (s.sorted.imp_of_mem ?_)
    intro a b ha hb hab y hy z hz heq
    exact hab.ne (hsrc.key_inj ha hb hy hz heq)
  unfold grown
  rw [mem_foldl_emplace hys, List.mem_filterMap]
  refine or_congr_right ⟨?_, ?_⟩
  · rintro ⟨⟨m, hm, hx⟩, hk⟩
    exact ⟨m, hm, hx, x, hx, hk⟩
  · rintro ⟨m, hm, hx, y, hy, hk⟩
    obtain rfl : x = y := Option.some.inj (hx.symm.trans hy)
    exact ⟨⟨m, hm, hx⟩, hk⟩

/-- What lacks a successor in the set is in the set, if it is in the grown one. -/
theorem Lacks.mem (hsrc : Successor src s) {x : α} (h : Lacks src s x)
    (hx : x ∈ (grown src s).entries) : x ∈ s.entries := by
  rcases (mem_grown hsrc).mp hx with hx | ⟨m, hmem, hm, -⟩
  · exact hx
  · obtain ⟨y, hy, -⟩ := h
    exact absurd (hsrc.last hmem hm) (by simp [Option.mem_def.mp hy])

/-- In a sorted list the elements with smaller keys stand before. -/
theorem mem_take_of_key_lt {l : List α} (hl : l.Pairwise fun a b => key a < key b) {x m : α} {i : ℕ}
    (hx : x ∈ l.take (i + 1)) (hm : m ∈ l) (hlt : key m < key x) : m ∈ l.take i := by
  obtain ⟨j, hj, rfl⟩ := List.mem_take_iff_getElem.mp hx
  obtain ⟨k, hk, rfl⟩ := List.mem_iff_getElem.mp hm
  refine List.mem_take_iff_getElem.mpr ⟨k, ?_, rfl⟩
  by_contra hle
  rcases (show j ≤ k by omega).eq_or_lt with rfl | hjk
  · exact lt_irrefl _ hlt
  · exact hlt.asymm (List.pairwise_iff_getElem.mp hl j k _ _ hjk)

/-- Two sorted lists of which one has all the first elements of the other, and no more than that
other, agree in these places. -/
theorem getElem?_eq_of_take_subset {l l' : List α} (hl : l.Pairwise fun a b => key a < key b)
    (hl' : l'.Pairwise fun a b => key a < key b) {i : ℕ} (hsub : ∀ x ∈ l, x ∈ l')
    (htake : ∀ x ∈ l'.take (i + 1), x ∈ l) : l[i]? = l'[i]? := by
  classical
  have hfilter : l = l'.filter (· ∈ l) := by
    refine eq_of_mem_of_sorted hl (hl'.filter _) fun x => ?_
    simp only [List.mem_filter, decide_eq_true_eq]
    exact ⟨fun hx => ⟨hsub x hx, hx⟩, And.right⟩
  have hfirst : (l'.take (i + 1)).filter (· ∈ l) = l'.take (i + 1) :=
    List.filter_eq_self.mpr fun x hx => by simpa using htake x hx
  have hsplit : l = l'.take (i + 1) ++ (l'.drop (i + 1)).filter (· ∈ l) := by
    conv_lhs => rw [hfilter, ← List.take_append_drop (i + 1) l', List.filter_append, hfirst]
  by_cases hi : i < l'.length
  · rw [hsplit, List.getElem?_append_left (by rw [List.length_take]; omega), List.getElem?_take]
    simp
  · have hall : l = l' := by
      rw [hsplit, List.take_of_length_le (by omega), List.drop_of_length_le (by omega)]
      simp
    rw [hall]

/-- How many successors the loop has inserted before it comes to place `i`. -/
def inserted (src : α → Option α) (s : FlatSet key) (i : ℕ) : ℕ :=
  ((grown src s).entries.take i).countP fun x => decide (Lacks src s x)

theorem inserted_succ {i : ℕ} {x : α} (hx : (grown src s).entries[i]? = some x) :
    inserted src s (i + 1) = inserted src s i + if Lacks src s x then 1 else 0 := by
  unfold inserted
  rw [List.take_add_one, hx, Option.toList_some, List.countP_append, List.countP_singleton]
  simp only [decide_eq_true_eq]

theorem inserted_mono {i j : ℕ} (h : i ≤ j) : inserted src s i ≤ inserted src s j :=
  (List.take_sublist_take_left h).countP_le

/-- What the loop has done before it comes to place `i`. -/
structure Inserts (src : α → Option α) (s : FlatSet key) (i : ℕ) (p : Pass key) : Prop where
  mem : ∀ x, x ∈ p.set.entries ↔
    x ∈ s.entries ∨ ∃ m ∈ (grown src s).entries.take i, src m = some x ∧ Lacks src s m
  length : p.set.entries.length = s.entries.length + inserted src s i
  capacity : p.moved = false → p.set.capacity = s.capacity
  moved : p.moved = true ↔ s.capacity < s.entries.length + inserted src s i

theorem Inserts.getElem (hsrc : Successor src s) {i : ℕ} {p : Pass key} (h : Inserts src s i p) :
    p.set.entries[i]? = (grown src s).entries[i]? := by
  refine getElem?_eq_of_take_subset p.set.sorted (grown src s).sorted (fun x hx => ?_) fun x hx => ?_
  · rw [mem_grown hsrc]
    refine ((h.mem x).mp hx).imp_right ?_
    rintro ⟨m, hm, hmx, hlacks⟩
    exact ⟨m, hlacks.mem hsrc (List.mem_of_mem_take hm), hmx, hlacks⟩
  · rw [h.mem]
    refine ((mem_grown hsrc).mp (List.mem_of_mem_take hx)).imp_right ?_
    rintro ⟨m, hm, hmx, hlacks⟩
    have hmem : m ∈ (grown src s).entries := (mem_grown hsrc).mpr (.inl hm)
    exact ⟨m, mem_take_of_key_lt (grown src s).sorted hx hmem (hsrc.key_lt hm hmx), hmx, hlacks⟩

/-- The successor that an element lacks in the set is still missing when the loop comes to it. -/
theorem Inserts.key_not_mem (hsrc : Successor src s) {i : ℕ} {p : Pass key}
    (h : Inserts src s i p) {x y : α} (hx : x ∈ (grown src s).entries)
    (hi : x ∉ (grown src s).entries.take i) (hy : src x = some y) (hk : key y ∉ s.keys) :
    key y ∉ p.set.keys := by
  intro hmem
  obtain ⟨z, hz, hkey⟩ := mem_keys.mp hmem
  rcases (h.mem z).mp hz with hz | ⟨m, hm, hmz, hlacks⟩
  · exact hk (hkey ▸ mem_keys_of_mem hz)
  · have hmem := hlacks.mem hsrc (List.mem_of_mem_take hm)
    have hxmem := Lacks.mem hsrc ⟨y, hy, hk⟩ hx
    have heq : m = x := eq_of_key_eq hmem hxmem (hsrc.key_inj hmem hxmem hmz hy hkey)
    exact hi (heq ▸ hm)

theorem Inserts.le_capacity {i : ℕ} {p : Pass key} (h : Inserts src s i p)
    (hmoved : p.moved = false) : s.entries.length + inserted src s i ≤ s.capacity :=
  not_lt.mp fun hlt => absurd (h.moved.mpr hlt) (by simp [hmoved])

/-- The visit of an element that lacks its successor inserts it. -/
theorem Inserts.visit_of_lacks (hsrc : Successor src s) {i : ℕ} {p : Pass key}
    (h : Inserts src s i p) (hmoved : p.moved = false) {x y : α}
    (hx : (grown src s).entries[i]? = some x) (hy : y ∈ src x) (hk : key y ∉ s.keys) :
    Inserts src s (i + 1) ⟨p.set.emplace grow y,
      decide (p.set.capacity < (p.set.emplace grow y).entries.length)⟩ := by
  have hlacks : Lacks src s x := ⟨y, hy, hk⟩
  have htake : (grown src s).entries.take (i + 1) = (grown src s).entries.take i ++ [x] := by
    rw [List.take_add_one, hx, Option.toList_some]
  have hnot : x ∉ (grown src s).entries.take i := by
    have hnodup := (List.take_sublist (i + 1) _).nodup (grown src s).nodup_entries
    rw [htake] at hnodup
    exact fun hmem => (List.nodup_append.mp hnodup).2.2 x hmem x (List.mem_singleton_self x) rfl
  have hk' := h.key_not_mem hsrc (List.mem_of_getElem? hx) hnot hy hk
  have hcap := h.capacity hmoved
  have hlen : (p.set.emplace grow y).entries.length =
      s.entries.length + inserted src s (i + 1) := by
    rw [length_emplace hk', h.length, inserted_succ hx, if_pos hlacks, Nat.add_assoc]
  refine ⟨fun z => ?_, hlen, fun hm => ?_, ?_⟩
  · rw [mem_emplace hk', h.mem, htake]
    have hyz : src x = some z ↔ z = y := by
      rw [Option.mem_def.mp hy, Option.some_inj, eq_comm]
    constructor
    · rintro (rfl | hz | ⟨m, hm, hmz⟩)
      · exact .inr ⟨x, by simp, hy, hlacks⟩
      · exact .inl hz
      · exact .inr ⟨m, List.mem_append_left _ hm, hmz⟩
    · rintro (hz | ⟨m, hm, hmz, hml⟩)
      · exact .inr (.inl hz)
      · rcases List.mem_append.mp hm with hm | hm
        · exact .inr (.inr ⟨m, hm, hmz, hml⟩)
        · rw [List.mem_singleton.mp hm] at hmz
          exact .inl (hyz.mp hmz)
  · rw [capacity_emplace (by simpa using hm), hcap]
  · simp only [decide_eq_true_eq, hlen, hcap]

/-- The visit of any other element leaves the set. -/
theorem Inserts.visit_of_not_lacks {i : ℕ} {p : Pass key} (h : Inserts src s i p)
    (hmoved : p.moved = false) {x : α} (hx : (grown src s).entries[i]? = some x)
    (hlacks : ¬ Lacks src s x) :
    Inserts src s (i + 1) ⟨p.set, decide (p.set.capacity < p.set.entries.length)⟩ := by
  have hins : inserted src s (i + 1) = inserted src s i := by
    rw [inserted_succ hx, if_neg hlacks, Nat.add_zero]
  have hcap := h.capacity hmoved
  refine ⟨fun z => ?_, by rw [hins, h.length], fun _ => hcap, ?_⟩
  · rw [h.mem, List.take_add_one, hx, Option.toList_some]
    refine or_congr_right ⟨fun ⟨m, hm, hmz⟩ => ⟨m, List.mem_append_left _ hm, hmz⟩, ?_⟩
    rintro ⟨m, hm, hmz, hml⟩
    rcases List.mem_append.mp hm with hm | hm
    · exact ⟨m, hm, hmz, hml⟩
    · exact absurd (List.mem_singleton.mp hm ▸ hml) hlacks
  · simp only [decide_eq_true_eq, h.length, hcap, hins]

/-- One visit, on the buffer of the start. -/
theorem Inserts.visit (hsrc : Successor src s) {i : ℕ} {p : Pass key} (h : Inserts src s i p)
    (hmoved : p.moved = false) {x : α} (hx : (grown src s).entries[i]? = some x) :
    Inserts src s (i + 1) ⟨emplaceNext grow src p.set x,
      decide (p.set.capacity < (emplaceNext grow src p.set x).entries.length)⟩ := by
  by_cases hlacks : Lacks src s x
  · obtain ⟨y, hy, hk⟩ := hlacks
    have hbody : emplaceNext grow src p.set x = p.set.emplace grow y := by
      unfold emplaceNext
      rw [Option.mem_def.mp hy]
    rw [hbody]
    exact h.visit_of_lacks hsrc hmoved hx hy hk
  · have hbody : emplaceNext grow src p.set x = p.set := by
      unfold emplaceNext
      split
      · next y hy =>
        have hk : key y ∈ s.keys := by
          by_contra hk
          exact hlacks ⟨y, hy, hk⟩
        obtain ⟨z, hz, hkey⟩ := mem_keys.mp hk
        exact emplace_of_mem (hkey ▸ mem_keys_of_mem ((h.mem z).mpr (.inl hz)))
      · rfl
    rw [hbody]
    exact h.visit_of_not_lacks hmoved hx hlacks

theorem inserts_start : Inserts src s 0 ⟨s, false⟩ where
  mem x := by simp
  length := by simp [inserted]
  capacity _ := rfl
  moved := by simp [inserted, s.fits]

theorem length_le_grown (hsrc : Successor src s) :
    s.entries.length ≤ (grown src s).entries.length :=
  (List.subperm_of_subset s.nodup_entries fun _ hx => (mem_grown hsrc).mpr (.inl hx)).length_le

variable (grow) in
/-- The loop comes to place `i` exactly if its buffer had room for what it inserted before the last
place that it has passed. -/
theorem exec_emplaceNext (hsrc : Successor src s) {i : ℕ} (hi : i ≤ s.entries.length) :
    (∀ p, Runs.exec (FlatSet.visit (emplaceNext grow src)) ⟨s, false⟩ (List.range i) = some p →
      Inserts src s i p ∧ ∀ j < i, s.entries.length + inserted src s j ≤ s.capacity) ∧
    ((∀ j < i, s.entries.length + inserted src s j ≤ s.capacity) → ∃ p,
      Runs.exec (FlatSet.visit (emplaceNext grow src)) ⟨s, false⟩ (List.range i) = some p) := by
  induction i with
  | zero =>
    refine ⟨fun p hp => ?_, fun _ => ⟨_, rfl⟩⟩
    obtain rfl : ⟨s, false⟩ = p := Option.some.inj hp
    exact ⟨inserts_start, fun j hj => absurd hj (Nat.not_lt_zero j)⟩
  | succ i ih =>
    obtain ⟨hdone, hdef⟩ := ih (Nat.le_of_succ_le hi)
    have hlt : i < (grown src s).entries.length := lt_of_lt_of_le hi (length_le_grown hsrc)
    have hget : (grown src s).entries[i]? = some (grown src s).entries[i] :=
      List.getElem?_eq_getElem hlt
    constructor
    · intro q hq
      rw [exec_visit_succ, Option.bind_eq_some_iff] at hq
      obtain ⟨p, hp, hq⟩ := hq
      obtain ⟨hins, hroom⟩ := hdone p hp
      obtain ⟨hmoved, x, hx, rfl⟩ := visit_eq_some.mp hq
      rw [hins.getElem hsrc] at hx
      refine ⟨hins.visit hsrc hmoved hx, fun j hj => ?_⟩
      rcases Nat.lt_succ_iff_lt_or_eq.mp hj with hj | rfl
      · exact hroom j hj
      · exact hins.le_capacity hmoved
    · intro hroom
      obtain ⟨p, hp⟩ := hdef fun j hj => hroom j (Nat.lt_succ_of_lt hj)
      have hins := (hdone p hp).1
      have hmoved : p.moved = false := by
        have hle := hroom i (Nat.lt_succ_self i)
        exact Bool.eq_false_iff.mpr fun hm => absurd (hins.moved.mp hm) (not_lt.mpr hle)
      rw [exec_visit_succ, hp]
      exact ⟨_, visit_eq_some.mpr ⟨hmoved, _, (hins.getElem hsrc).trans hget, rfl⟩⟩

/-- The loop gets to its end exactly if its buffer has room for all but what the last place adds. -/
theorem forEach_emplaceNext_isSome (hsrc : Successor src s) :
    (∃ s', forEach (emplaceNext grow src) s = some s') ↔
      s.entries.length + inserted src s (s.entries.length - 1) ≤ s.capacity := by
  obtain ⟨hdone, hdef⟩ := exec_emplaceNext grow hsrc (le_refl s.entries.length)
  unfold forEach
  constructor
  · rintro ⟨s', h⟩
    obtain ⟨p, hp, -⟩ := Option.map_eq_some_iff.mp h
    cases hn : s.entries.length with
    | zero => simp [inserted]
    | succ m =>
      have := (hdone p hp).2 m (by omega)
      rwa [hn] at this
  · intro h
    obtain ⟨p, hp⟩ := hdef fun j hj =>
      (Nat.add_le_add_left (inserted_mono (by omega)) _).trans h
    exact ⟨p.set, Option.map_eq_some_iff.mpr ⟨p, hp, rfl⟩⟩

theorem mem_forEach_emplaceNext (hsrc : Successor src s)
    (h : forEach (emplaceNext grow src) s = some s') (x : α) :
    x ∈ s'.entries ↔ x ∈ s.entries ∨
      ∃ m ∈ (grown src s).entries.take s.entries.length, src m = some x ∧ Lacks src s m := by
  obtain ⟨p, hp, rfl⟩ := Option.map_eq_some_iff.mp h
  exact ((exec_emplaceNext _ hsrc le_rfl).1 p hp).1.mem x

/-- Whatever it inserts, the loop keeps what was there. -/
theorem mem_forEach_of_mem (h : forEach (emplaceNext grow src) s = some s') {x : α}
    (hx : x ∈ s.entries) : x ∈ s'.entries := by
  obtain ⟨p, hp, rfl⟩ := Option.map_eq_some_iff.mp h
  refine Runs.exec_invariant (I := fun q : Pass key => x ∈ q.set.entries) ?_ hx hp
  intro q i q' hq hstep
  obtain ⟨-, y, -, rfl⟩ := visit_eq_some.mp hstep
  change x ∈ (emplaceNext grow src q.set y).entries
  unfold emplaceNext
  split
  · exact mem_emplace_of_mem hq
  · exact hq

end Insert

end Loops

end FlatSet
