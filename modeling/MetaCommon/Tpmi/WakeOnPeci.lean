import Mathlib.Data.Finset.Basic
import Mathlib.Data.List.Sort
import MetaCommon.Lib.Runs

/-!
# Wake-on-PECI

A `WakeOnPECIManager` enables wake-on-PECI die by die when a request finds its CPU asleep, and
disables it when it is destroyed. Both loops end at the first die that refuses; one flag says that
some die has been woken. The PECI transfers answer as they like.
-/

namespace MetaCommon.Tpmi

/-- The status codes that the manager tells apart. -/
inductive EPECIStatus
  | success
  | timeout
  | failed
deriving DecidableEq, Repr

inductive WakePolicy
  | wakeAllowed
  | dontWake
deriving DecidableEq, Repr

/-- The status of a transfer and the completion code it leaves. -/
abbrev PeciAnswer := EPECIStatus × UInt8

def ccUnavailResource : UInt8 := 0x82

/-- The dies of a mask, in the order of the loop. -/
def dies (mask : UInt32) : List ℕ := (List.range 32).filter fun i => mask.toNat.testBit i

/-- The last of the writes to one die: while they time out, up to `n` more follow. -/
def lastTry (answer : ℕ → PeciAnswer) : ℕ → ℕ → PeciAnswer
  | 0, k => answer k
  | n + 1, k => if (answer k).1 = .timeout then lastTry answer n (k + 1) else answer k

/-- What the transfers of one call answer: the read of the die mask, and each write to each die. -/
structure WakeAnswers where
  read : PeciAnswer
  data : UInt32
  write : ℕ → ℕ → PeciAnswer

def WakeAnswers.die (a : WakeAnswers) (i : ℕ) : PeciAnswer := lastTry (a.write i) 5 0

/-- `dieMask` is the entry of the CPU in the cache that all managers share. Two fields are histories
the class does not have: the dies that were enabled, and those of them that no disable has been
issued for since. -/
structure WakeOnPECIManager where
  peciWoken : Bool
  dieMask : Option UInt32
  enabled : Finset ℕ
  pending : Finset ℕ

namespace WakeOnPECIManager

variable (check : PeciAnswer → Bool)

def init (dieMask : Option UInt32) : WakeOnPECIManager := ⟨false, dieMask, ∅, ∅⟩

/-- The loop over the dies; `false` means that it throws. -/
def setDies (check : PeciAnswer → Bool) (enable : Bool) (a : WakeAnswers) :
    WakeOnPECIManager → List ℕ → Bool × WakeOnPECIManager
  | s, [] => (true, s)
  | s, i :: is =>
    let s := if enable then s else { s with pending := s.pending.erase i }
    if check (a.die i) then
      setDies check enable a (if enable then { s with
        peciWoken := true, enabled := insert i s.enabled, pending := insert i s.pending } else s) is
    else (false, s)

/-- `setWakeOnPECI`: whether it returns normally. -/
def setWakeOnPECI (s : WakeOnPECIManager) (enable : Bool) (a : WakeAnswers) :
    Bool × WakeOnPECIManager :=
  if enable = s.peciWoken then (true, s)
  else
    match s.dieMask.or (if check a.read then some a.data else none) with
    | none => (false, s)
    | some mask =>
      let r := setDies check enable a { s with dieMask := some mask } (dies mask)
      (r.1, if r.1 ∧ ¬ enable then { r.2 with peciWoken := false } else r.2)

/-- `~WakeOnPECIManager`. -/
def destroy (s : WakeOnPECIManager) (a : WakeAnswers) : WakeOnPECIManager :=
  if s.peciWoken then (s.setWakeOnPECI check false a).2 else s

/-- `peciOpWithWakeRetry`, with the answers of the operation, which is made once or twice: the last
answer, or `none` where the call of `setWakeOnPECI` throws. -/
def peciOpWithWakeRetry (policy : WakePolicy) (s : WakeOnPECIManager) (peciOp : ℕ → PeciAnswer)
    (a : WakeAnswers) : Option PeciAnswer × WakeOnPECIManager :=
  if policy = .wakeAllowed ∧ peciOp 0 = (.success, ccUnavailResource) then
    let r := s.setWakeOnPECI check true a
    (if r.1 then some (peciOp 1) else none, r.2)
  else (some (peciOp 0), s)

end WakeOnPECIManager

/-- A call of a manager, or the read of the die mask by another manager of the CPU. -/
inductive WakeEvent
  | setWakeOnPECI (enable : Bool) (a : WakeAnswers)
  | peciOpWithWakeRetry (peciOp : ℕ → PeciAnswer) (a : WakeAnswers)
  | cacheDieMask (mask : UInt32)
  | destroy (a : WakeAnswers)

/-- The answers to the call `setWakeOnPECI(true)` that an event makes. -/
def WakeEvent.wakes (policy : WakePolicy) : WakeEvent → Option WakeAnswers
  | .setWakeOnPECI enable a => if enable then some a else none
  | .peciOpWithWakeRetry peciOp a =>
    if policy = .wakeAllowed ∧ peciOp 0 = (.success, ccUnavailResource) then some a else none
  | .cacheDieMask _ => none
  | .destroy _ => none

namespace WakeOnPECIManager

variable (check : PeciAnswer → Bool) (policy : WakePolicy)

/-- A manager, or `none` once it has been destroyed. -/
def step (s : Option WakeOnPECIManager) (e : WakeEvent) : Option WakeOnPECIManager :=
  s.bind fun s =>
    match e with
    | .setWakeOnPECI enable a => some (s.setWakeOnPECI check enable a).2
    | .peciOpWithWakeRetry peciOp a => some (s.peciOpWithWakeRetry check policy peciOp a).2
    | .cacheDieMask mask => some { s with dieMask := s.dieMask.or (some mask) }
    | .destroy _ => none

/-- A call that enables returns normally only with all dies of the mask enabled, and the destructor
leaves no enabled die without a disable. -/
def WakeSound (s : Option WakeOnPECIManager) (e : WakeEvent) : Prop :=
  ∀ m ∈ s,
    (∀ a ∈ e.wakes policy, (m.setWakeOnPECI check true a).1 = true →
      ∃ mask ∈ (m.setWakeOnPECI check true a).2.dieMask, ∀ i ∈ dies mask,
        i ∈ (m.setWakeOnPECI check true a).2.enabled) ∧
    ∀ a, e = .destroy a → (m.destroy check a).pending = ∅

/-- No call enables while the flag is set and a die has never been enabled, and in the destructor no
die refuses that comes before an enabled one. -/
def Undisturbed (s : Option WakeOnPECIManager) (e : WakeEvent) : Prop :=
  ∀ m ∈ s, ∀ mask ∈ m.dieMask,
    ((e.wakes policy).isSome → m.peciWoken = true → ∀ i ∈ dies mask, i ∈ m.enabled) ∧
    ∀ a, e = .destroy a → ∀ i ∈ m.pending, ∀ j ∈ dies mask, j < i → check (a.die j) = true

/-! ### The loop -/

variable {check} {policy} {s : WakeOnPECIManager} {a : WakeAnswers}

theorem dies_sorted (mask : UInt32) : (dies mask).Pairwise (· < ·) :=
  List.Pairwise.filter _ List.pairwise_lt_range

variable (check) in
theorem setDies_dieMask (enable : Bool) (is : List ℕ) :
    (setDies check enable a s is).2.dieMask = s.dieMask := by
  induction is generalizing s with
  | nil => rfl
  | cons i is ih =>
    unfold setDies
    cases enable <;> simp only [Bool.false_eq_true, if_true, if_false] <;> split_ifs <;>
      first | rfl | exact ih.trans rfl

variable (check) in
/-- Enabling: what is enabled is owed a disable and sets the flag, and a loop that returns has
enabled every die. -/
theorem setDies_enable (is : List ℕ) :
    (s.enabled ⊆ (setDies check true a s is).2.enabled ∧
      (s.peciWoken = true → (setDies check true a s is).2.peciWoken = true)) ∧
    (∀ i ∈ (setDies check true a s is).2.pending,
      i ∈ s.pending ∨ i ∈ is ∧ (setDies check true a s is).2.peciWoken = true) ∧
    ((setDies check true a s is).1 = true →
      ∀ i ∈ is, i ∈ (setDies check true a s is).2.enabled) := by
  induction is generalizing s with
  | nil => exact ⟨⟨Finset.Subset.refl _, id⟩, fun i hi => .inl hi, fun _ => nofun⟩
  | cons i is ih =>
    unfold setDies
    simp only [if_true]
    by_cases hc : check (a.die i) = true
    · rw [if_pos hc]
      obtain ⟨⟨hsub, hflag⟩, hpend, hall⟩ := ih (s := { s with
        peciWoken := true, enabled := insert i s.enabled, pending := insert i s.pending })
      refine ⟨⟨(Finset.subset_insert _ _).trans hsub, fun _ => hflag rfl⟩, fun j hj => ?_,
        fun h => ?_⟩
      · rcases hpend j hj with hj | ⟨hj, hw⟩
        · rcases Finset.mem_insert.mp hj with rfl | hj
          · exact .inr ⟨List.mem_cons_self, hflag rfl⟩
          · exact .inl hj
        · exact .inr ⟨List.mem_cons_of_mem _ hj, hw⟩
      · exact List.forall_mem_cons.mpr ⟨hsub (Finset.mem_insert_self _ _), hall h⟩
    · rw [if_neg hc]
      exact ⟨⟨Finset.Subset.refl _, id⟩, fun j hj => .inl hj, nofun⟩

variable (check) in
/-- Disabling: a die is still owed a disable if it was before and no write to it was issued, which
is so behind the first die that refuses. -/
theorem setDies_disable {is : List ℕ} (hsorted : is.Pairwise (· < ·)) :
    ((setDies check false a s is).2.peciWoken = s.peciWoken ∧
      (setDies check false a s is).2.enabled = s.enabled) ∧
    ((setDies check false a s is).1 = true ↔ ∀ i ∈ is, check (a.die i) = true) ∧
    ∀ i, i ∈ (setDies check false a s is).2.pending ↔
      i ∈ s.pending ∧ (i ∈ is → ∃ j ∈ is, j < i ∧ check (a.die j) = false) := by
  induction is generalizing s with
  | nil => exact ⟨⟨rfl, rfl⟩, by simp [setDies], by simp [setDies]⟩
  | cons i is ih =>
    obtain ⟨hlt, hrest⟩ := List.pairwise_cons.mp hsorted
    unfold setDies
    simp only [Bool.false_eq_true, if_false]
    by_cases hc : check (a.die i) = true
    · rw [if_pos hc]
      obtain ⟨hsame, hret, hpend⟩ := ih hrest (s := { s with pending := s.pending.erase i })
      refine ⟨hsame, ?_, fun k => ?_⟩
      · rw [hret, List.forall_mem_cons]
        exact ⟨fun h => ⟨hc, h⟩, And.right⟩
      · rw [hpend, Finset.mem_erase, List.mem_cons, List.exists_mem_cons_iff]
        constructor
        · rintro ⟨⟨hne, hk⟩, h⟩
          exact ⟨hk, fun hmem => .inr (h (hmem.resolve_left hne))⟩
        · rintro ⟨hk, h⟩
          have hne : k ≠ i := by
            rintro rfl
            rcases h (.inl rfl) with ⟨hkk, -⟩ | ⟨j, hj, hjk, -⟩
            · exact Nat.lt_irrefl k hkk
            · exact absurd (hlt j hj) (Nat.lt_asymm hjk)
          refine ⟨⟨hne, hk⟩, fun hmem => (h (.inr hmem)).resolve_left ?_⟩
          rintro ⟨-, hf⟩
          rw [hc] at hf
          cases hf
    · rw [if_neg hc]
      have hf : check (a.die i) = false := by simpa using hc
      refine ⟨⟨rfl, rfl⟩, ?_, fun k => ?_⟩
      · exact iff_of_false nofun fun h => hc (h i List.mem_cons_self)
      · rw [Finset.mem_erase]
        constructor
        · rintro ⟨hne, hk⟩
          refine ⟨hk, fun hmem => ⟨i, List.mem_cons_self, ?_, hf⟩⟩
          exact hlt k ((List.mem_cons.mp hmem).resolve_left hne)
        · rintro ⟨hk, h⟩
          refine ⟨?_, hk⟩
          rintro rfl
          obtain ⟨j, hj, hjk, -⟩ := h List.mem_cons_self
          rcases List.mem_cons.mp hj with rfl | hj
          · exact Nat.lt_irrefl j hjk
          · exact absurd (hlt j hj) (Nat.lt_asymm hjk)

/-! ### The calls -/

/-- A die that is owed a disable is a die of the mask, and then the flag is set. -/
structure Owed (m : WakeOnPECIManager) : Prop where
  flag : ∀ i ∈ m.pending, m.peciWoken = true
  die : ∀ i ∈ m.pending, ∀ mask ∈ m.dieMask, i ∈ dies mask
  cached : m.peciWoken = true → m.dieMask.isSome

theorem owed_init (dieMask : Option UInt32) : (init dieMask).Owed :=
  ⟨nofun, nofun, nofun⟩

variable {m : WakeOnPECIManager}

theorem setWakeOnPECI_true_of_not_woken (h : m.peciWoken = false) :
    m.setWakeOnPECI check true a =
      ((m.dieMask.or (if check a.read then some a.data else none)).map fun mask =>
        setDies check true a { m with dieMask := some mask } (dies mask)).getD (false, m) := by
  unfold setWakeOnPECI
  rw [if_neg (by simp [h])]
  cases m.dieMask.or (if check a.read then some a.data else none) with
  | none => rfl
  | some mask => simp

theorem setWakeOnPECI_false_of_woken (h : m.peciWoken = true) {mask : UInt32}
    (hm : m.dieMask = some mask) :
    m.setWakeOnPECI check false a =
      ((setDies check false a m (dies mask)).1,
        if (setDies check false a m (dies mask)).1 then
          { (setDies check false a m (dies mask)).2 with peciWoken := false }
        else (setDies check false a m (dies mask)).2) := by
  have hsame : { m with dieMask := some mask } = m := by rw [← hm]
  unfold setWakeOnPECI
  rw [if_neg (by simp [h]), hm, Option.some_or]
  simp [hsame]

theorem Owed.setWakeOnPECI_true (h : m.Owed) : (m.setWakeOnPECI check true a).2.Owed := by
  cases hw : m.peciWoken with
  | true =>
    rw [setWakeOnPECI, if_pos hw.symm]
    exact h
  | false =>
    rw [setWakeOnPECI_true_of_not_woken hw]
    have hnone : ∀ i, i ∉ m.pending := fun i hi => by simpa [hw] using h.flag i hi
    cases m.dieMask.or (if check a.read then some a.data else none) with
    | none => exact h
    | some mask =>
      obtain ⟨-, hpend, -⟩ := setDies_enable check (a := a)
        (s := { m with dieMask := some mask }) (dies mask)
      have hmask := setDies_dieMask check (a := a) (s := { m with dieMask := some mask })
        true (dies mask)
      refine ⟨fun i hi => ?_, fun i hi mask' hm' => ?_, fun _ => ?_⟩
      · exact ((hpend i hi).resolve_left (hnone i)).2
      · have heq : mask = mask' := Option.some.inj (hmask.symm.trans hm')
        exact heq ▸ ((hpend i hi).resolve_left (hnone i)).1
      · exact Option.isSome_of_eq_some hmask

theorem Owed.setWakeOnPECI_false (h : m.Owed) : (m.setWakeOnPECI check false a).2.Owed := by
  cases hw : m.peciWoken with
  | false =>
    rw [setWakeOnPECI, if_pos hw.symm]
    exact h
  | true =>
    obtain ⟨mask, hm⟩ := Option.isSome_iff_exists.mp (h.cached hw)
    obtain ⟨⟨hflag, -⟩, hret, hpend⟩ := setDies_disable check (a := a) (s := m)
      (dies_sorted mask)
    have hmask := setDies_dieMask check (a := a) (s := m) false (dies mask)
    rw [setWakeOnPECI_false_of_woken hw hm]
    have hsub : ∀ i ∈ (setDies check false a m (dies mask)).2.pending, i ∈ m.pending :=
      fun i hi => ((hpend i).mp hi).1
    split_ifs with hr
    · -- every die has accepted its disable, so nothing is owed
      have hno : ∀ i, i ∉ (setDies check false a m (dies mask)).2.pending := by
        intro i hi
        obtain ⟨j, hj, -, hf⟩ := ((hpend i).mp hi).2 (h.die i (hsub i hi) mask hm)
        rw [hret.mp hr j hj] at hf
        cases hf
      exact ⟨fun i hi => absurd hi (hno i), fun i hi => absurd hi (hno i), nofun⟩
    · refine ⟨fun _ _ => hflag.trans hw, fun i hi mask' hm' => ?_, fun _ => ?_⟩
      · exact h.die i (hsub i hi) mask' (hmask.symm.trans hm')
      · exact Option.isSome_of_eq_some (hmask.trans hm)

theorem Owed.step {s : Option WakeOnPECIManager} {e : WakeEvent} (h : ∀ m ∈ s, m.Owed) :
    ∀ m ∈ step check policy s e, m.Owed := by
  cases s with
  | none => nofun
  | some m₀ =>
    intro m hm
    have h₀ := h m₀ rfl
    cases e with
    | setWakeOnPECI enable a =>
      obtain rfl := Option.some.inj hm
      cases enable with
      | true => exact h₀.setWakeOnPECI_true
      | false => exact h₀.setWakeOnPECI_false
    | peciOpWithWakeRetry peciOp a =>
      obtain rfl := Option.some.inj hm
      unfold peciOpWithWakeRetry
      split_ifs
      · exact h₀.setWakeOnPECI_true
      · exact h₀
    | cacheDieMask mask =>
      obtain rfl := Option.some.inj hm
      cases hc : m₀.dieMask with
      | none =>
        have hw : ¬ m₀.peciWoken = true := fun hw => by simpa [hc] using h₀.cached hw
        exact ⟨h₀.flag, fun i hi => absurd (h₀.flag i hi) hw, fun hw' => absurd hw' hw⟩
      | some mask' =>
        rw [hc] at hm
        exact ⟨h₀.flag, fun i hi k hk => h₀.die i hi k (hc ▸ hk), fun _ => rfl⟩
    | destroy a => cases hm

/-- An enabling call is sound unless it finds the flag set with a die still asleep. -/
theorem Owed.wakes_iff (h : m.Owed) (a : WakeAnswers) :
    ((m.setWakeOnPECI check true a).1 = true →
      ∃ mask ∈ (m.setWakeOnPECI check true a).2.dieMask, ∀ i ∈ dies mask,
        i ∈ (m.setWakeOnPECI check true a).2.enabled) ↔
    ∀ mask ∈ m.dieMask, m.peciWoken = true → ∀ i ∈ dies mask, i ∈ m.enabled := by
  cases hw : m.peciWoken with
  | true =>
    obtain ⟨mask, hm⟩ := Option.isSome_iff_exists.mp (h.cached hw)
    rw [setWakeOnPECI, if_pos hw.symm]
    simp [hm]
  | false =>
    refine iff_of_true ?_ nofun
    rw [setWakeOnPECI_true_of_not_woken hw]
    cases m.dieMask.or (if check a.read then some a.data else none) with
    | none => nofun
    | some mask =>
      obtain ⟨-, -, hall⟩ := setDies_enable check (a := a)
        (s := { m with dieMask := some mask }) (dies mask)
      exact fun hr => ⟨mask, setDies_dieMask check _ _, hall hr⟩

/-- The destructor is sound unless a die in front of an enabled one refuses. -/
theorem Owed.destroy_iff (h : m.Owed) (a : WakeAnswers) :
    (m.destroy check a).pending = ∅ ↔
      ∀ mask ∈ m.dieMask, ∀ i ∈ m.pending, ∀ j ∈ dies mask, j < i → check (a.die j) = true := by
  cases hw : m.peciWoken with
  | false =>
    have hno : ∀ i, i ∉ m.pending := fun i hi => by simpa [hw] using h.flag i hi
    refine iff_of_true ?_ fun _ _ i hi => absurd hi (hno i)
    rw [destroy, if_neg (by simp [hw])]
    exact Finset.eq_empty_of_forall_notMem hno
  | true =>
    obtain ⟨mask, hm⟩ := Option.isSome_iff_exists.mp (h.cached hw)
    obtain ⟨-, -, hpend⟩ := setDies_disable check (a := a) (s := m) (dies_sorted mask)
    have hset : (m.destroy check a).pending = (setDies check false a m (dies mask)).2.pending := by
      rw [destroy, if_pos hw, setWakeOnPECI_false_of_woken hw hm]
      split_ifs <;> rfl
    rw [hset, Finset.eq_empty_iff_forall_notMem]
    constructor
    · intro hno mask' hm' i hi j hj hji
      obtain rfl := Option.some.inj (hm.symm.trans hm')
      by_contra hc
      exact hno i ((hpend i).mpr ⟨hi, fun _ => ⟨j, hj, hji, by simpa using hc⟩⟩)
    · intro hok i hi
      obtain ⟨hi, hj⟩ := (hpend i).mp hi
      obtain ⟨j, hj, hji, hf⟩ := hj (h.die i hi mask hm)
      rw [hok mask hm i hi j hj hji] at hf
      cases hf

theorem wakeSound_iff {s : Option WakeOnPECIManager} (h : ∀ m ∈ s, m.Owed) (e : WakeEvent) :
    WakeSound check policy s e ↔ Undisturbed check policy s e := by
  cases s with
  | none => exact iff_of_true nofun nofun
  | some m =>
    have h₀ := h m rfl
    simp only [WakeSound, Undisturbed, Option.mem_def, Option.some.injEq, forall_eq']
    constructor
    · rintro ⟨hwake, hdestroy⟩ mask hm
      refine ⟨fun he hw => ?_, fun a ha => (h₀.destroy_iff a).mp (hdestroy a ha) mask hm⟩
      obtain ⟨a, ha⟩ := Option.isSome_iff_exists.mp he
      exact (h₀.wakes_iff a).mp (hwake a ha) mask hm hw
    · intro hg
      refine ⟨fun a ha => (h₀.wakes_iff a).mpr fun mask hm => ?_,
        fun a ha => (h₀.destroy_iff a).mpr fun mask hm => (hg mask hm).2 a ha⟩
      exact (hg mask hm).1 (Option.isSome_of_eq_some ha)

/-- In a run, every enabling call and the destructor do what they should exactly if no call enables
while the flag hides a die that was never enabled, and no die refuses to be disabled in front of one
that is enabled. -/
theorem run_wakeSound_iff (check : PeciAnswer → Bool) (policy : WakePolicy)
    (dieMask : Option UInt32) (es : List WakeEvent) :
    Runs.Guarded (step check policy) (WakeSound check policy) (some (init dieMask)) es ↔
      Runs.Guarded (step check policy) (Undisturbed check policy) (some (init dieMask)) es := by
  refine Runs.guarded_congr (I := fun s => ∀ m ∈ s, m.Owed) (fun _ _ h _ => Owed.step h)
    (fun _ e h => wakeSound_iff h e) fun m hm => ?_
  rw [← Option.some.inj hm]
  exact owed_init dieMask

/-- PECI with the dies 0 and 1, of which one refuses. -/
def refusing (die : ℕ) : WakeAnswers where
  read := (.success, 0x40)
  data := 3
  write i _ := if i = die then (.failed, 0x40) else (.success, 0x40)

def plainCheck (r : PeciAnswer) : Bool := r = (.success, 0x40)

/-- Die 1 refuses to be woken, and the second call returns without having asked it again; or die 0
refuses the disable, and die 1 is never asked. -/
theorem not_run_wakeSound :
    ¬ Runs.Guarded (step plainCheck .wakeAllowed) (WakeSound plainCheck .wakeAllowed)
      (some (init none)) [.setWakeOnPECI true (refusing 1), .setWakeOnPECI true (refusing 2)] ∧
    ¬ Runs.Guarded (step plainCheck .wakeAllowed) (WakeSound plainCheck .wakeAllowed)
      (some (init none)) [.setWakeOnPECI true (refusing 2), .destroy (refusing 0)] := by
  constructor
  · rintro ⟨-, h, -⟩
    obtain ⟨mask, hm, hall⟩ := (h _ rfl).1 (refusing 2) rfl rfl
    have hmask : ((init none).setWakeOnPECI plainCheck true (refusing 1)).2.dieMask = some 3 := rfl
    obtain rfl : 3 = mask := Option.some.inj (hmask.symm.trans hm)
    exact absurd (hall 1 (by decide)) (by decide)
  · rintro ⟨-, h, -⟩
    exact absurd ((h _ rfl).2 (refusing 0) rfl) (by decide)

end WakeOnPECIManager

end MetaCommon.Tpmi
