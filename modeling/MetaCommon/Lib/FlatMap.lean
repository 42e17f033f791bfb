import Mathlib.Order.Lattice
import Mathlib.Data.List.Nodup
import Mathlib.Data.List.Pairwise
import Mathlib.Tactic.Common

/-!
# Flat maps

A flat map keeps its entries in one list in the order of their keys, and no two have the same key.
`assign` is assignment to the entry of a key, which is made if it is missing; `insert` leaves an
entry that is there as it is.
-/

structure FlatMap (κ α : Type*) [LinearOrder κ] where
  entries : List (κ × α)
  sorted : entries.Pairwise fun a b => a.1 < b.1

namespace FlatMap

variable {κ α : Type*} [LinearOrder κ]

theorem eq_of_entries_eq {m m' : FlatMap κ α} (h : m.entries = m'.entries) : m = m' := by
  cases m
  cases m'
  congr

def empty : FlatMap κ α := ⟨[], .nil⟩

def isEmpty (m : FlatMap κ α) : Bool := m.entries.isEmpty

def keys (m : FlatMap κ α) : List κ := m.entries.map Prod.fst

def lookup (m : FlatMap κ α) (k : κ) : Option α :=
  (m.entries.find? fun e => e.1 = k).map Prod.snd

def insertEntry (k : κ) (a : α) : List (κ × α) → List (κ × α)
  | [] => [(k, a)]
  | e :: es =>
    if e.1 = k then (k, a) :: es
    else if k < e.1 then (k, a) :: e :: es
    else e :: insertEntry k a es

theorem mem_insertEntry {k : κ} {a : α} {es : List (κ × α)}
    (hes : es.Pairwise fun a b => a.1 < b.1) (e : κ × α) :
    e ∈ insertEntry k a es ↔ e = (k, a) ∨ e ∈ es ∧ e.1 ≠ k := by
  induction es with
  | nil => simp [insertEntry]
  | cons f es ih =>
    obtain ⟨hf, hes⟩ := List.pairwise_cons.mp hes
    unfold insertEntry
    split_ifs with heq hlt
    · have hne : ∀ e ∈ es, e.1 ≠ k := fun e he => heq ▸ (hf e he).ne'
      grind
    · have hne : ∀ e ∈ es, e.1 ≠ k := fun e he => (hlt.trans (hf e he)).ne'
      grind
    · rw [List.mem_cons, ih hes]
      grind

theorem pairwise_insertEntry (k : κ) (a : α) {es : List (κ × α)}
    (hes : es.Pairwise fun a b => a.1 < b.1) :
    (insertEntry k a es).Pairwise fun a b => a.1 < b.1 := by
  induction es with
  | nil => exact List.pairwise_singleton _ _
  | cons f es ih =>
    obtain ⟨hf, hrest⟩ := List.pairwise_cons.mp hes
    unfold insertEntry
    split_ifs with heq hlt
    · exact List.pairwise_cons.mpr ⟨fun e he => heq ▸ hf e he, hrest⟩
    · refine List.pairwise_cons.mpr ⟨fun e he => ?_, hes⟩
      rcases List.mem_cons.mp he with rfl | he
      · exact hlt
      · exact hlt.trans (hf e he)
    · refine List.pairwise_cons.mpr ⟨fun e he => ?_, ih hrest⟩
      rcases (mem_insertEntry hrest e).mp he with rfl | ⟨he, -⟩
      · exact lt_of_le_of_ne (le_of_not_gt hlt) heq
      · exact hf e he

/-- A search finds the new entry under its own key and what was there under every other. -/
theorem find?_insertEntry (k k' : κ) (a : α) (es : List (κ × α)) :
    (insertEntry k a es).find? (fun e => e.1 = k') =
      if k = k' then some (k, a) else es.find? fun e => e.1 = k' := by
  induction es with
  | nil =>
    unfold insertEntry
    split_ifs with hk <;> simp [hk]
  | cons e es ih =>
    unfold insertEntry
    split_ifs with heq hlt hk hk hk
    all_goals grind

theorem lookup_insertEntry [BEq κ] [LawfulBEq κ] (k k' : κ) (a : α) (es : List (κ × α)) :
    (insertEntry k a es).lookup k' = if k' = k then some a else es.lookup k' := by
  induction es with
  | nil =>
    unfold insertEntry
    grind
  | cons e es ih =>
    unfold insertEntry
    split_ifs with heq hlt hk hk hk
    all_goals grind

def assign (m : FlatMap κ α) (k : κ) (a : α) : FlatMap κ α :=
  ⟨insertEntry k a m.entries, pairwise_insertEntry k a m.sorted⟩

def erase (m : FlatMap κ α) (k : κ) : FlatMap κ α :=
  ⟨m.entries.filter fun e => e.1 ≠ k, m.sorted.filter _⟩

theorem mem_erase {m : FlatMap κ α} {k : κ} (e : κ × α) :
    e ∈ (m.erase k).entries ↔ e ∈ m.entries ∧ e.1 ≠ k := by
  simp [erase, List.mem_filter]

def filter (m : FlatMap κ α) (p : κ × α → Bool) : FlatMap κ α :=
  ⟨m.entries.filter p, m.sorted.filter p⟩

/-- Every value by a function of its key and itself. -/
def map {β : Type*} (m : FlatMap κ α) (f : κ → α → β) : FlatMap κ β :=
  ⟨m.entries.map fun e => (e.1, f e.1 e.2), List.pairwise_map.mpr m.sorted⟩

theorem mem_map {β : Type*} {m : FlatMap κ α} {f : κ → α → β} {e : κ × β} :
    e ∈ (m.map f).entries ↔ ∃ a, (e.1, a) ∈ m.entries ∧ f e.1 a = e.2 := by
  unfold map
  simp only [List.mem_map]
  constructor
  · rintro ⟨⟨k, a⟩, he, rfl⟩
    exact ⟨a, he, rfl⟩
  · rintro ⟨a, ha, hf⟩
    exact ⟨(e.1, a), ha, by rw [hf]⟩

/-- A key has one entry. -/
theorem entry_eq_of_key_eq {m : FlatMap κ α} {e e' : κ × α} (he : e ∈ m.entries)
    (he' : e' ∈ m.entries) (hk : e.1 = e'.1) : e = e' := by
  have hnodup : (m.entries.map Prod.fst).Nodup :=
    List.pairwise_map.mpr (m.sorted.imp fun h => h.ne)
  exact List.inj_on_of_nodup_map hnodup he he' hk

theorem perm_insertEntry {k : κ} (a : α) {es : List (κ × α)} (hk : ∀ e ∈ es, e.1 ≠ k) :
    (insertEntry k a es).Perm ((k, a) :: es) := by
  induction es with
  | nil => exact .refl _
  | cons e es ih =>
    obtain ⟨he, hes⟩ := List.forall_mem_cons.mp hk
    unfold insertEntry
    rw [if_neg he]
    split_ifs
    · exact .refl _
    · exact ((ih hes).cons e).trans (.swap _ _ _)

/-- After an assignment the entry of the key is the new one, and the others are the old ones. -/
theorem mem_assign {m : FlatMap κ α} {k : κ} {a : α} (e : κ × α) :
    e ∈ (m.assign k a).entries ↔ e = (k, a) ∨ e ∈ m.entries ∧ e.1 ≠ k :=
  mem_insertEntry m.sorted e

/-- An assignment to an entry that is not there drops none. -/
theorem mem_assign_of_notMem {m : FlatMap κ α} {k : κ} {a : α} (hk : k ∉ m.keys) (e : κ × α) :
    e ∈ (m.assign k a).entries ↔ e = (k, a) ∨ e ∈ m.entries := by
  refine (mem_assign e).trans (or_congr_right (and_iff_left_of_imp fun he => ?_))
  rintro rfl
  exact hk (List.mem_map_of_mem he)

/-- An assignment to an entry that is there makes no other entry. -/
theorem keys_assign_of_mem {m : FlatMap κ α} {k : κ} (a : α) (hk : k ∈ m.keys) :
    (m.assign k a).keys = m.keys := by
  obtain ⟨es, hes⟩ := m
  change k ∈ es.map Prod.fst at hk
  change (insertEntry k a es).map Prod.fst = es.map Prod.fst
  induction es with
  | nil => exact absurd hk List.not_mem_nil
  | cons e es ih =>
    obtain ⟨he, hes⟩ := List.pairwise_cons.mp hes
    unfold insertEntry
    split_ifs with heq hlt
    · rw [List.map_cons, List.map_cons, heq]
    · rcases List.mem_cons.mp hk with rfl | hk
      · exact (heq rfl).elim
      · obtain ⟨f, hf, rfl⟩ := List.mem_map.mp hk
        exact (hlt.asymm (he f hf)).elim
    · have hk' : k ∈ es.map Prod.fst := (List.mem_cons.mp hk).resolve_left (Ne.symm heq)
      rw [List.map_cons, List.map_cons, ih hes hk']

theorem lookup_isSome {m : FlatMap κ α} {k : κ} : (m.lookup k).isSome ↔ k ∈ m.keys := by
  unfold lookup keys
  simp

/-- An entry of the key is kept. -/
def insert (m : FlatMap κ α) (k : κ) (a : α) : FlatMap κ α :=
  if (m.lookup k).isSome then m else m.assign k a

theorem insert_of_mem {m : FlatMap κ α} {k : κ} (a : α) (hk : k ∈ m.keys) : m.insert k a = m :=
  if_pos (lookup_isSome.mpr hk)

theorem insert_of_notMem {m : FlatMap κ α} {k : κ} (a : α) (hk : k ∉ m.keys) :
    m.insert k a = m.assign k a :=
  if_neg (lookup_isSome.not.mpr hk)

theorem mem_keys_assign {m : FlatMap κ α} {k k' : κ} {a : α} :
    k' ∈ (m.assign k a).keys ↔ k' = k ∨ k' ∈ m.keys := by
  unfold keys
  simp only [List.mem_map, mem_assign]
  constructor
  · rintro ⟨e, rfl | ⟨he, -⟩, rfl⟩
    · exact .inl rfl
    · exact .inr ⟨e, he, rfl⟩
  · rintro (rfl | ⟨e, he, rfl⟩)
    · exact ⟨(_, a), .inl rfl, rfl⟩
    · by_cases hk : e.1 = k
      · exact ⟨(k, a), .inl rfl, hk.symm⟩
      · exact ⟨e, .inr ⟨he, hk⟩, rfl⟩

theorem mem_keys_insert {m : FlatMap κ α} {k k' : κ} {a : α} :
    k' ∈ (m.insert k a).keys ↔ k' = k ∨ k' ∈ m.keys := by
  by_cases hk : k ∈ m.keys
  · rw [insert_of_mem a hk, or_iff_right_of_imp]
    rintro rfl
    exact hk
  · rw [insert_of_notMem a hk, mem_keys_assign]

theorem mem_keys_erase {m : FlatMap κ α} {k k' : κ} :
    k' ∈ (m.erase k).keys ↔ k' ≠ k ∧ k' ∈ m.keys := by
  unfold keys erase
  simp only [List.mem_map, List.mem_filter, decide_eq_true_eq]
  constructor
  · rintro ⟨e, ⟨he, hne⟩, rfl⟩
    exact ⟨hne, e, he, rfl⟩
  · rintro ⟨hne, e, he, rfl⟩
    exact ⟨e, ⟨he, hne⟩, rfl⟩

theorem insert_eq_self_iff {m : FlatMap κ α} {k : κ} {a : α} :
    m.insert k a = m ↔ k ∈ m.keys := by
  refine ⟨fun h => ?_, insert_of_mem a⟩
  rw [← h]
  exact mem_keys_insert.mpr (.inl rfl)

theorem erase_eq_self_iff {m : FlatMap κ α} {k : κ} : m.erase k = m ↔ k ∉ m.keys := by
  constructor
  · intro h hk
    rw [← h] at hk
    exact (mem_keys_erase.mp hk).1 rfl
  · intro hk
    apply eq_of_entries_eq
    unfold erase
    rw [List.filter_eq_self]
    intro e he
    rw [decide_eq_true_eq]
    rintro rfl
    exact hk (List.mem_map_of_mem he)

theorem mem_assign_self (m : FlatMap κ α) (k : κ) (a : α) : (k, a) ∈ (m.assign k a).entries :=
  (mem_assign _).mpr (.inl rfl)

/-! ### What is found after a change -/

theorem lookup_assign (m : FlatMap κ α) (k k' : κ) (a : α) :
    (m.assign k a).lookup k' = if k = k' then some a else m.lookup k' := by
  unfold lookup assign
  rw [find?_insertEntry]
  split_ifs <;> rfl

theorem lookup_insert {m : FlatMap κ α} {k : κ} (hk : k ∉ m.keys) (k' : κ) (a : α) :
    (m.insert k a).lookup k' = if k = k' then some a else m.lookup k' := by
  rw [insert_of_notMem a hk, lookup_assign]

theorem lookup_map {β : Type*} (m : FlatMap κ α) (f : κ → α → β) (k : κ) :
    (m.map f).lookup k = (m.lookup k).map (f k) := by
  unfold lookup map
  rw [List.find?_map]
  change ((m.entries.find? fun e => e.1 = k).map _).map _ = _
  cases h : m.entries.find? fun e => e.1 = k with
  | none => rfl
  | some e =>
    have hk := List.find?_some h
    rw [← of_decide_eq_true hk]
    rfl

theorem lookup_eq_some {m : FlatMap κ α} {k : κ} {a : α} :
    m.lookup k = some a ↔ (k, a) ∈ m.entries := by
  unfold lookup
  constructor
  · intro h
    obtain ⟨e, he, rfl⟩ := Option.map_eq_some_iff.mp h
    have hk := List.find?_some he
    rw [← of_decide_eq_true hk]
    exact List.mem_of_find?_eq_some he
  · intro h
    cases hfind : m.entries.find? fun e => e.1 = k with
    | none => exact absurd (decide_eq_true rfl) (List.find?_eq_none.mp hfind _ h)
    | some e =>
      have hk := List.find?_some hfind
      rw [entry_eq_of_key_eq (List.mem_of_find?_eq_some hfind) h (of_decide_eq_true hk)]
      rfl

theorem lookup_filter (m : FlatMap κ α) (p : κ × α → Bool) (k : κ) :
    (m.filter p).lookup k = (m.lookup k).filter fun a => p (k, a) := by
  ext a
  rw [lookup_eq_some, Option.filter_eq_some_iff, lookup_eq_some]
  exact List.mem_filter

theorem lookup_erase (m : FlatMap κ α) (k k' : κ) :
    (m.erase k).lookup k' = if k' = k then none else m.lookup k' := by
  ext a
  rw [lookup_eq_some, mem_erase]
  split_ifs with hk
  · simp [hk]
  · simp [hk, lookup_eq_some]

/-- A search of a list in order finds the least element that has the property. -/
theorem find?_eq_some_iff_of_sorted {ks : List κ} (hks : ks.Pairwise (· < ·)) {p : κ → Bool}
    {k : κ} : ks.find? p = some k ↔ k ∈ ks ∧ p k ∧ ∀ k' ∈ ks, p k' → k ≤ k' := by
  induction ks with
  | nil => simp
  | cons a ks ih =>
    obtain ⟨ha, hks⟩ := List.pairwise_cons.mp hks
    by_cases hp : p a
    · rw [List.find?_cons_of_pos hp, Option.some_inj]
      constructor
      · rintro rfl
        refine ⟨List.mem_cons_self, hp, List.forall_mem_cons.mpr ⟨fun _ => le_rfl, ?_⟩⟩
        exact fun k' hk' _ => (ha k' hk').le
      · rintro ⟨hk, -, hleast⟩
        rcases List.mem_cons.mp hk with rfl | hk
        · rfl
        · exact absurd (ha k hk) (hleast a List.mem_cons_self hp).not_gt
    · rw [List.find?_cons_of_neg hp, ih hks, List.forall_mem_cons, List.mem_cons]
      constructor
      · rintro ⟨hk, hpk, hleast⟩
        exact ⟨.inr hk, hpk, fun hpa => absurd hpa hp, hleast⟩
      · rintro ⟨rfl | hk, hpk, -, hleast⟩
        · exact absurd hpk hp
        · exact ⟨hk, hpk, hleast⟩

theorem find?_keys_eq_some {m : FlatMap κ α} {p : κ → Bool} {k : κ} :
    m.keys.find? p = some k ↔ k ∈ m.keys ∧ p k ∧ ∀ k' ∈ m.keys, p k' → k ≤ k' :=
  find?_eq_some_iff_of_sorted (List.pairwise_map.mpr m.sorted)

/-! ### Iterators -/

/-- The entry with which a walk begins; none is the end. -/
def first (m : FlatMap κ α) : Option κ := m.entries.head?.map Prod.fst

/-- The entry to which an iterator goes on from that of a key. -/
def after (m : FlatMap κ α) (k : κ) : Option κ :=
  (m.entries.find? fun e => k < e.1).map Prod.fst

section Split

variable {m : FlatMap κ α} {pre rest : List (κ × α)} {k : κ} {a : α}
  (h : m.entries = pre ++ (k, a) :: rest)
include h

theorem keys_lt_of_entries : (∀ e ∈ pre, e.1 < k) ∧ ∀ e ∈ rest, k < e.1 := by
  have hsorted := m.sorted
  rw [h] at hsorted
  obtain ⟨-, hrest, hpre⟩ := List.pairwise_append.mp hsorted
  exact ⟨fun e he => hpre e he _ List.mem_cons_self, (List.pairwise_cons.mp hrest).1⟩

theorem lookup_of_entries : m.lookup k = some a := by
  rw [lookup_eq_some, h]
  exact List.mem_append_right _ List.mem_cons_self

theorem after_of_entries : m.after k = rest.head?.map Prod.fst := by
  obtain ⟨hpre, hrest⟩ := keys_lt_of_entries h
  have hskip : pre.find? (fun e => k < e.1) = none :=
    List.find?_eq_none.mpr fun e he => by simpa using (hpre e he).le
  unfold after
  rw [h, List.find?_append, hskip, Option.none_or, List.find?_cons_of_neg (by simp)]
  cases rest with
  | nil => rfl
  | cons e rest => rw [List.find?_cons_of_pos (by simpa using hrest e List.mem_cons_self)]; rfl

theorem entries_erase_of_entries : (m.erase k).entries = pre ++ rest := by
  obtain ⟨hpre, hrest⟩ := keys_lt_of_entries h
  change m.entries.filter _ = _
  rw [h, List.filter_append, List.filter_cons_of_neg (by simp),
    List.filter_eq_self.mpr fun e he => by simpa using (hpre e he).ne,
    List.filter_eq_self.mpr fun e he => by simpa using (hrest e he).ne']

end Split

end FlatMap
