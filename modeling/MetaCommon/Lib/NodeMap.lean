import Mathlib.Logic.Function.Basic
import Mathlib.Tactic.Common

/-!
# Maps whose entries have an identity

A node-based map keeps an entry at one place from its insertion until it is erased: assigning to a
present key changes the value in place, and a key that is inserted again gets a new place. A
reference into the map is the identity of the entry it was taken from, and it is good as long as
the map still has an entry of that identity under the key.
-/

structure Node (α : Type*) where
  id : ℕ
  value : α
deriving DecidableEq

/-- The entries of a map, and the first identity that has never been given to one. -/
structure NodeMap (κ α : Type*) where
  entry : κ → Option (Node α)
  fresh : ℕ
  id_lt : ∀ k n, entry k = some n → n.id < fresh

namespace NodeMap

variable {κ α : Type*}

def empty : NodeMap κ α := ⟨fun _ => none, 0, nofun⟩

@[simp] theorem empty_entry (k : κ) : (empty : NodeMap κ α).entry k = none := rfl

def Contains (m : NodeMap κ α) (k : κ) : Prop := (m.entry k).isSome

instance (m : NodeMap κ α) (k : κ) : Decidable (m.Contains k) :=
  inferInstanceAs (Decidable ((m.entry k).isSome = true))

/-- The reference `r`, taken under the key `k`, is to an entry that is still in the map. -/
def Holds (m : NodeMap κ α) (k : κ) (r : ℕ) : Prop := ∃ n ∈ m.entry k, n.id = r

instance (m : NodeMap κ α) (k : κ) (r : ℕ) : Decidable (m.Holds k r) :=
  match h : m.entry k with
  | none => isFalse (by simp [Holds, h])
  | some n => decidable_of_iff (n.id = r) (by simp [Holds, h])

/-- The identity that the entry of `k` has once something is assigned to it. -/
def idFor (m : NodeMap κ α) (k : κ) : ℕ := (m.entry k).elim m.fresh Node.id

theorem idFor_of_entry {m : NodeMap κ α} {k : κ} {n : Node α} (h : m.entry k = some n) :
    m.idFor k = n.id := by
  simp [idFor, h]

theorem Holds.lt {m : NodeMap κ α} {k : κ} {r : ℕ} (h : m.Holds k r) : r < m.fresh := by
  obtain ⟨n, hn, rfl⟩ := h
  exact m.id_lt k n hn

theorem Contains.holds_idFor {m : NodeMap κ α} {k : κ} (h : m.Contains k) :
    m.Holds k (m.idFor k) := by
  obtain ⟨n, hn⟩ := Option.isSome_iff_exists.mp h
  exact ⟨n, hn, (idFor_of_entry hn).symm⟩

section Update

variable [DecidableEq κ]

/-- `operator[]` followed by an assignment. -/
def assign (m : NodeMap κ α) (k : κ) (a : α) : NodeMap κ α where
  entry := Function.update m.entry k (some ⟨m.idFor k, a⟩)
  fresh := m.fresh + 1
  id_lt k' n h := by
    by_cases hk : k' = k
    · subst hk
      rw [Function.update_self, Option.some.injEq] at h
      subst h
      unfold idFor
      cases he : m.entry k' with
      | none => exact Nat.lt_succ_self _
      | some n => exact Nat.lt_succ_of_lt (m.id_lt k' n he)
    · rw [Function.update_of_ne hk] at h
      exact Nat.lt_succ_of_lt (m.id_lt k' n h)

def erase (m : NodeMap κ α) (k : κ) : NodeMap κ α where
  entry := Function.update m.entry k none
  fresh := m.fresh
  id_lt k' n h := by
    by_cases hk : k' = k
    · subst hk
      rw [Function.update_self] at h
      cases h
    · rw [Function.update_of_ne hk] at h
      exact m.id_lt k' n h

/-- The value of a present entry is changed in place. -/
def modify (m : NodeMap κ α) (k : κ) (f : α → α) : NodeMap κ α where
  entry := Function.update m.entry k ((m.entry k).map fun n => ⟨n.id, f n.value⟩)
  fresh := m.fresh
  id_lt k' n h := by
    by_cases hk : k' = k
    · subst hk
      rw [Function.update_self, Option.map_eq_some_iff] at h
      obtain ⟨n', hn', rfl⟩ := h
      exact m.id_lt k' n' hn'
    · rw [Function.update_of_ne hk] at h
      exact m.id_lt k' n h

variable (m : NodeMap κ α) (k : κ) {k' : κ} {r : ℕ}

@[simp] theorem assign_fresh (a : α) : (m.assign k a).fresh = m.fresh + 1 := rfl

@[simp] theorem erase_fresh : (m.erase k).fresh = m.fresh := rfl

@[simp] theorem modify_fresh (f : α → α) : (m.modify k f).fresh = m.fresh := rfl

theorem assign_entry (a : α) :
    (m.assign k a).entry = Function.update m.entry k (some ⟨m.idFor k, a⟩) := rfl

theorem erase_entry : (m.erase k).entry = Function.update m.entry k none := rfl

theorem modify_entry (f : α → α) : (m.modify k f).entry =
    Function.update m.entry k ((m.entry k).map fun n => ⟨n.id, f n.value⟩) := rfl

/-- An assignment neither ends nor revives a reference taken before it. -/
theorem holds_assign_iff {a : α} (hr : r < m.fresh) :
    (m.assign k a).Holds k' r ↔ m.Holds k' r := by
  by_cases hk : k' = k
  · subst hk
    cases he : m.entry k' with
    | none => simp [Holds, assign_entry, idFor, he, Nat.ne_of_gt hr]
    | some n => simp [Holds, assign_entry, idFor, he]
  · simp [Holds, assign_entry, Function.update_of_ne hk]

theorem holds_assign_self {a : α} : (m.assign k a).Holds k (m.idFor k) := by
  simp [Holds, assign_entry]

@[simp] theorem holds_erase_iff : (m.erase k).Holds k' r ↔ k' ≠ k ∧ m.Holds k' r := by
  by_cases hk : k' = k
  · subst hk
    simp [Holds, erase_entry]
  · simp [Holds, erase_entry, hk]

@[simp] theorem holds_modify_iff {f : α → α} : (m.modify k f).Holds k' r ↔ m.Holds k' r := by
  by_cases hk : k' = k
  · subst hk
    simp [Holds, modify_entry]
  · simp [Holds, modify_entry, Function.update_of_ne hk]

theorem contains_assign_iff {a : α} : (m.assign k a).Contains k' ↔ k' = k ∨ m.Contains k' := by
  by_cases hk : k' = k
  · subst hk
    simp [Contains, assign_entry]
  · simp [Contains, assign_entry, hk]

theorem contains_erase_iff : (m.erase k).Contains k' ↔ k' ≠ k ∧ m.Contains k' := by
  by_cases hk : k' = k
  · subst hk
    simp [Contains, erase_entry]
  · simp [Contains, erase_entry, hk]

theorem contains_modify_iff {f : α → α} : (m.modify k f).Contains k' ↔ m.Contains k' := by
  by_cases hk : k' = k
  · subst hk
    simp [Contains, modify_entry]
  · simp [Contains, modify_entry, Function.update_of_ne hk]

/-- From `m` to `m'` the keys in `E` have lost their entries, whether or not they have got new ones
since, and no other entry has been lost. -/
structure Evolves (E : κ → Prop) (m m' : NodeMap κ α) : Prop where
  fresh_le : m.fresh ≤ m'.fresh
  holds_iff : ∀ k r, r < m.fresh → (m'.Holds k r ↔ ¬ E k ∧ m.Holds k r)

omit [DecidableEq κ] in
theorem Evolves.refl {E : κ → Prop} (hE : ∀ k, ¬ E k) : Evolves E m m :=
  ⟨Nat.le_refl _, fun k _ _ => by simp [hE k]⟩

omit [DecidableEq κ] in
theorem Evolves.trans {E F G : κ → Prop} {m m₁ m₂ : NodeMap κ α} (h₁ : Evolves E m m₁)
    (h₂ : Evolves F m₁ m₂) (hG : ∀ k, G k ↔ E k ∨ F k) : Evolves G m m₂ := by
  refine ⟨Nat.le_trans h₁.fresh_le h₂.fresh_le, fun k r hr => ?_⟩
  rw [h₂.holds_iff k r (Nat.lt_of_lt_of_le hr h₁.fresh_le), h₁.holds_iff k r hr, hG]
  tauto

theorem evolves_assign {E : κ → Prop} (hE : ∀ k, ¬ E k) (a : α) : Evolves E m (m.assign k a) :=
  ⟨Nat.le_succ _, fun k' _ hr => by simp [hE k', m.holds_assign_iff k hr]⟩

theorem evolves_erase {E : κ → Prop} (hE : ∀ k', E k' ↔ k' = k) : Evolves E m (m.erase k) :=
  ⟨Nat.le_refl _, fun k' _ _ => by simp [hE k']⟩

theorem evolves_modify {E : κ → Prop} (hE : ∀ k, ¬ E k) (f : α → α) :
    Evolves E m (m.modify k f) :=
  ⟨Nat.le_refl _, fun k' _ _ => by simp [hE k']⟩

end Update

end NodeMap
