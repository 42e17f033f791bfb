import Mathlib.Logic.Function.Basic
import Mathlib.Data.List.Basic
import Mathlib.Data.List.GetD
import Mathlib.Data.List.Induction
import Mathlib.Tactic.Common

/-!
# Byte buffers as functions of the index

`store b off xs` is the buffer after the loop that writes the elements of `xs` one after the
other from offset `off` on; `load b off n` is the list of the `n` elements from `off` on. The
lemmas say what a load sees of a store, and `lastWrite` what is left of several stores.
-/

namespace Buffer

variable {α : Type*}

def store (b : ℕ → α) : ℕ → List α → ℕ → α
  | _, [] => b
  | off, x :: xs => store (Function.update b off x) (off + 1) xs

def load (b : ℕ → α) (off : ℕ) : ℕ → List α
  | 0 => []
  | n + 1 => b off :: load b (off + 1) n

@[simp] theorem load_zero (b : ℕ → α) (off : ℕ) : load b off 0 = [] := rfl

theorem load_succ (b : ℕ → α) (off n : ℕ) :
    load b off (n + 1) = b off :: load b (off + 1) n := rfl

@[simp] theorem load_length (b : ℕ → α) (off n : ℕ) : (load b off n).length = n := by
  induction n generalizing off with
  | zero => rfl
  | succ n ih => simp [load_succ, ih]

theorem load_add (b : ℕ → α) (off m n : ℕ) :
    load b off (m + n) = load b off m ++ load b (off + m) n := by
  induction m generalizing off with
  | zero => simp
  | succ m ih =>
    have h₁ : m + 1 + n = m + n + 1 := by omega
    have h₂ : off + 1 + m = off + (m + 1) := by omega
    rw [h₁, load_succ, load_succ, ih, h₂, List.cons_append]

theorem load_concat (b : ℕ → α) (off n : ℕ) :
    load b off (n + 1) = load b off n ++ [b (off + n)] := by
  rw [load_add]
  rfl

theorem load_getElem (b : ℕ → α) (off n i : ℕ) (hi : i < (load b off n).length) :
    (load b off n)[i] = b (off + i) := by
  induction n generalizing off i with
  | zero => simp at hi
  | succ n ih =>
    cases i with
    | zero => rfl
    | succ i =>
      have h : off + 1 + i = off + (i + 1) := by omega
      simp only [load_succ, List.getElem_cons_succ, ih, h]

theorem load_congr {b b' : ℕ → α} {off n : ℕ} (h : ∀ i, off ≤ i → i < off + n → b i = b' i) :
    load b off n = load b' off n := by
  induction n generalizing off with
  | zero => rfl
  | succ n ih =>
    rw [load_succ, load_succ, h off (Nat.le_refl off) (by omega),
      ih (fun i h₁ h₂ => h i (by omega) (by omega))]

/-- Blocks of one length, the last one cut, make up the whole stretch. -/
theorem load_blocks (b : ℕ → α) {off size step n : ℕ} (hlast : ∀ k < n, off + k * step < size)
    (hcover : size ≤ off + n * step) :
    (List.range' off n step).flatMap (fun i => load b i (min step (size - i))) =
      load b off (size - off) := by
  induction n generalizing off with
  | zero =>
    have h : size - off = 0 := by omega
    rw [h]
    rfl
  | succ n ih =>
    have hstart : off < size := by simpa using hlast 0 (Nat.succ_pos n)
    have hlast' : ∀ k < n, off + step + k * step < size := fun k hk => by
      have h := hlast (k + 1) (Nat.succ_lt_succ hk)
      rw [Nat.succ_mul] at h
      omega
    have hcover' : size ≤ off + step + n * step := by
      rw [Nat.succ_mul] at hcover
      omega
    have hrest := ih hlast' hcover'
    rw [List.range'_succ, List.flatMap_cons, hrest]
    by_cases hle : step ≤ size - off
    · have h : size - off = step + (size - (off + step)) := by omega
      rw [Nat.min_eq_left hle, h, load_add]
    · have h : size - (off + step) = 0 := by omega
      rw [Nat.min_eq_right (Nat.le_of_not_le hle), h, load_zero, List.append_nil]

/-- In a sequence of blocks an index is found in its block as long as the blocks before it have full
length. -/
theorem flatMap_range_getElem? (block : ℕ → List α) {size k n : ℕ} (hk : k < n)
    (hfull : ∀ j < k, (block j).length = size) {r : ℕ} (hr : r < (block k).length) :
    ((List.range n).flatMap block)[k * size + r]? = (block k)[r]? := by
  induction k generalizing block n with
  | zero =>
    obtain ⟨n, rfl⟩ := Nat.exists_eq_succ_of_ne_zero (Nat.ne_of_gt hk)
    rw [List.range_succ_eq_map, List.flatMap_cons, Nat.zero_mul, Nat.zero_add,
      List.getElem?_append_left hr]
  | succ k ih =>
    obtain ⟨n, rfl⟩ := Nat.exists_eq_succ_of_ne_zero (Nat.ne_zero_of_lt hk)
    have h₀ : (block 0).length = size := hfull 0 (Nat.succ_pos k)
    have hshift : (k + 1) * size + r = (block 0).length + (k * size + r) := by
      rw [h₀, Nat.succ_mul]
      omega
    rw [List.range_succ_eq_map, List.flatMap_cons, hshift,
      List.getElem?_append_right (Nat.le_add_right _ _), Nat.add_sub_cancel_left,
      List.flatMap_map]
    exact ih (fun j => block (j + 1)) (Nat.lt_of_succ_lt_succ hk)
      (fun j hj => hfull (j + 1) (Nat.succ_lt_succ hj)) hr

theorem load_update_of_not_mem (b : ℕ → α) (off n j : ℕ) (x : α) (hj : j < off ∨ off + n ≤ j) :
    load (Function.update b j x) off n = load b off n :=
  load_congr fun i h₁ h₂ => Function.update_of_ne (by omega) _ _

theorem store_of_lt (b : ℕ → α) (off : ℕ) (xs : List α) (i : ℕ) (hi : i < off) :
    store b off xs i = b i := by
  induction xs generalizing b off with
  | nil => rfl
  | cons x xs ih =>
    rw [store, ih _ _ (by omega), Function.update_of_ne (by omega)]

/-- A store is seen by the load of the same stretch. -/
theorem load_store (b : ℕ → α) (off : ℕ) (xs : List α) :
    load (store b off xs) off xs.length = xs := by
  induction xs generalizing b off with
  | nil => rfl
  | cons x xs ih =>
    rw [List.length_cons, load_succ, store, ih, store_of_lt _ _ _ _ (Nat.lt_succ_self _),
      Function.update_self]

theorem store_apply (b : ℕ → α) (off : ℕ) (xs : List α) (i : ℕ) :
    store b off xs i = if off ≤ i then xs[i - off]?.getD (b i) else b i := by
  induction xs generalizing b off with
  | nil => simp [store]
  | cons x xs ih =>
    rw [store, ih]
    by_cases hlt : off < i
    · have h₁ : off + 1 ≤ i := hlt
      have h₂ : i - off = i - (off + 1) + 1 := by omega
      rw [if_pos h₁, if_pos (Nat.le_of_lt hlt), h₂, List.getElem?_cons_succ,
        Function.update_of_ne (Nat.ne_of_gt hlt)]
    · have h₁ : ¬ off + 1 ≤ i := hlt
      rw [if_neg h₁]
      by_cases he : i = off
      · subst he
        simp
      · have h₂ : ¬ off ≤ i := by omega
        rw [if_neg h₂, Function.update_of_ne he]

theorem load_getElem? (b : ℕ → α) (off n i : ℕ) :
    (load b off n)[i]? = if i < n then some (b (off + i)) else none := by
  by_cases hi : i < n
  · rw [if_pos hi, List.getElem?_eq_getElem (by rwa [load_length]), load_getElem]
  · rw [if_neg hi, List.getElem?_eq_none (by rw [load_length]; omega)]

theorem load_shift (b : ℕ → α) (off n : ℕ) : load b off n = load (fun i => b (off + i)) 0 n := by
  apply List.ext_getElem
  · rw [load_length, load_length]
  · intro i h₁ h₂
    rw [load_getElem, load_getElem, Nat.zero_add]

/-- The buffer that starts with `xs` and holds `d` from there on. -/
def ofList (d : α) (xs : List α) : ℕ → α := fun i => xs.getD i d

theorem ofList_apply_of_le (d : α) {xs : List α} {i : ℕ} (hi : xs.length ≤ i) :
    ofList d xs i = d := List.getD_eq_default xs d hi

theorem ofList_append_replicate (d : α) (xs : List α) (n : ℕ) :
    ofList d (xs ++ List.replicate n d) = ofList d xs := by
  funext i
  unfold ofList
  by_cases hi : i < xs.length
  · rw [List.getD_append _ _ _ _ hi]
  · have hle : xs.length ≤ i := Nat.le_of_not_lt hi
    rw [List.getD_append_right _ _ _ _ hle, List.getD_eq_default xs d hle, List.getD_eq_getElem?_getD,
      List.getElem?_replicate]
    split_ifs <;> rfl

/-- What is stored right after the list is appended to it. -/
theorem store_ofList (d : α) (xs ys : List α) :
    store (ofList d xs) xs.length ys = ofList d (xs ++ ys) := by
  funext i
  rw [store_apply]
  unfold ofList
  by_cases hi : xs.length ≤ i
  · rw [if_pos hi, List.getD_append_right _ _ _ _ hi, List.getD_eq_default xs d hi,
      List.getD_eq_getElem?_getD]
  · rw [if_neg hi, List.getD_append _ _ _ _ (Nat.lt_of_not_le hi)]

theorem load_ofList (d : α) {xs : List α} {n : ℕ} (h : xs.length ≤ n) :
    load (ofList d xs) 0 n = xs ++ List.replicate (n - xs.length) d := by
  have hlen : (xs ++ List.replicate (n - xs.length) d).length = n := by
    rw [List.length_append, List.length_replicate, Nat.add_sub_cancel' h]
  have hstore := load_store (ofList d []) 0 (xs ++ List.replicate (n - xs.length) d)
  have happend := store_ofList d [] (xs ++ List.replicate (n - xs.length) d)
  rw [hlen] at hstore
  rw [List.nil_append, List.length_nil, ofList_append_replicate] at happend
  rwa [happend] at hstore

/-- The buffer after storing blocks, each with its offset, one after the other. -/
def storeAll (b : ℕ → α) (blocks : List (ℕ × List α)) : ℕ → α :=
  blocks.foldl (fun b x => store b x.1 x.2) b

/-- What the last block that covers an index has there. -/
def lastWrite (blocks : List (ℕ × List α)) (i : ℕ) : Option α :=
  blocks.foldl (fun y x => if x.1 ≤ i then x.2[i - x.1]?.or y else y) none

theorem storeAll_concat (b : ℕ → α) (blocks : List (ℕ × List α)) (x : ℕ × List α) :
    storeAll b (blocks ++ [x]) = store (storeAll b blocks) x.1 x.2 := by
  simp [storeAll]

theorem lastWrite_concat (blocks : List (ℕ × List α)) (x : ℕ × List α) (i : ℕ) :
    lastWrite (blocks ++ [x]) i =
      if x.1 ≤ i then x.2[i - x.1]?.or (lastWrite blocks i) else lastWrite blocks i := by
  simp [lastWrite]

theorem storeAll_apply (b : ℕ → α) (blocks : List (ℕ × List α)) (i : ℕ) :
    storeAll b blocks i = (lastWrite blocks i).getD (b i) := by
  induction blocks using List.reverseRecOn with
  | nil => rfl
  | append_singleton blocks x ih =>
    rw [storeAll_concat, store_apply, lastWrite_concat, ih]
    by_cases hx : x.1 ≤ i
    · rw [if_pos hx, if_pos hx]
      cases x.2[i - x.1]? <;> rfl
    · rw [if_neg hx, if_neg hx]

theorem lastWrite_isSome {blocks : List (ℕ × List α)} {i : ℕ}
    (h : ∃ x ∈ blocks, x.1 ≤ i ∧ i < x.1 + x.2.length) : (lastWrite blocks i).isSome := by
  induction blocks using List.reverseRecOn with
  | nil =>
    obtain ⟨x, hx, _⟩ := h
    cases hx
  | append_singleton blocks y ih =>
    rw [lastWrite_concat]
    obtain ⟨x, hx, hlo, hhi⟩ := h
    rcases List.mem_append.mp hx with hx | hx
    · have hold := ih ⟨x, hx, hlo, hhi⟩
      split_ifs
      · rw [Option.isSome_or, hold, Bool.or_true]
      · exact hold
    · obtain rfl := List.mem_singleton.mp hx
      have hlt : i - x.1 < x.2.length := by omega
      rw [if_pos hlo, List.getElem?_eq_getElem hlt, Option.some_or]
      rfl

end Buffer
