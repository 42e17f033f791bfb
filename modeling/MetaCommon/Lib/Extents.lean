import MetaCommon.Lib.Buffer
import Mathlib.Data.List.Pairwise
import Mathlib.Order.Lattice

/-!
# Blocks that do not overlap

A span is an offset with a length. Blocks are written into a buffer at their offsets, one after the
other. Their spans are apart if no index is in two of them; then each block can be loaded again,
whatever the order of the writes.
-/

namespace Extents

open Buffer

abbrev Span := ℕ × ℕ

def Covers (x : Span) (i : ℕ) : Prop := x.1 ≤ i ∧ i < x.1 + x.2

def Apart (x y : Span) : Prop := ∀ i, ¬ (Covers x i ∧ Covers y i)

def Inside (size : ℕ) (x : Span) : Prop := ∀ i, Covers x i → i < size

/-- The span of a block. -/
def span {α : Type*} (x : ℕ × List α) : Span := (x.1, x.2.length)

@[simp] theorem span_fst {α : Type*} (x : ℕ × List α) : (span x).1 = x.1 := rfl

@[simp] theorem span_snd {α : Type*} (x : ℕ × List α) : (span x).2 = x.2.length := rfl

section Spans

variable {x y : Span} {size : ℕ}

theorem inside_iff : Inside size x ↔ x.2 = 0 ∨ x.1 + x.2 ≤ size := by
  constructor
  · intro h
    by_contra hno
    have := h (x.1 + x.2 - 1) ⟨by omega, by omega⟩
    omega
  · rintro h i ⟨hlo, hhi⟩
    omega

theorem apart_iff :
    Apart x y ↔ x.2 = 0 ∨ y.2 = 0 ∨ x.1 + x.2 ≤ y.1 ∨ y.1 + y.2 ≤ x.1 := by
  constructor
  · intro h
    by_contra hno
    -- the later of the two offsets is in both
    refine h (max x.1 y.1) ⟨⟨le_max_left _ _, ?_⟩, ⟨le_max_right _ _, ?_⟩⟩ <;> omega
  · rintro h i ⟨⟨hxlo, hxhi⟩, hylo, hyhi⟩
    omega

end Spans

section Blocks

variable {α : Type*} {x : ℕ × List α} {blocks : List (ℕ × List α)} {b : ℕ → α}

/-- No later block covers what this one has written. -/
theorem load_storeAll_store (h : ∀ y ∈ blocks, Apart (span x) (span y)) :
    load (storeAll (store b x.1 x.2) blocks) x.1 x.2.length = x.2 := by
  induction blocks using List.reverseRecOn with
  | nil => exact load_store b x.1 x.2
  | append_singleton blocks y ih =>
    have hrest := ih fun z hz => h z (List.mem_append_left _ hz)
    have hy := h y (List.mem_append_right _ List.mem_cons_self)
    rw [storeAll_concat]
    refine Eq.trans (load_congr fun i hlo hhi => ?_) hrest
    rw [store_apply]
    split
    · next hle =>
      have hout : y.2[i - y.1]? = none := by
        rw [List.getElem?_eq_none_iff]
        by_contra hin
        exact hy i ⟨⟨hlo, hhi⟩, hle, show i < y.1 + y.2.length by omega⟩
      rw [hout]
      rfl
    · rfl

/-- Each of the blocks can be loaded again. -/
theorem load_storeAll_of_apart (h : (blocks.map span).Pairwise Apart) (hx : x ∈ blocks) :
    load (storeAll b blocks) x.1 x.2.length = x.2 := by
  induction blocks generalizing b with
  | nil => cases hx
  | cons y blocks ih =>
    obtain ⟨hy, hrest⟩ := List.pairwise_cons.mp h
    obtain rfl | hx := List.mem_cons.mp hx
    · exact load_storeAll_store fun z hz => hy (span z) (List.mem_map_of_mem hz)
    · exact ih hrest hx

end Blocks

section Files

/-- The elements from an offset on are written over. A list that ends before them grows, with `d`
in the gap; where there is nothing to write it stays as it is. -/
def overwrite {α : Type*} (d : α) (file : List α) (off : ℕ) (xs : List α) : List α :=
  if xs.isEmpty then file
  else (file ++ List.replicate (off - file.length) d).take off ++ xs ++ file.drop (off + xs.length)

def overwriteAll {α : Type*} (d : α) (file : List α) (blocks : List (ℕ × List α)) : List α :=
  blocks.foldl (fun file x => overwrite d file x.1 x.2) file

/-- How long a list is after a span of it has been written. -/
def grow (size : ℕ) (x : Span) : ℕ := if x.2 = 0 then size else max size (x.1 + x.2)

theorem le_grow (size : ℕ) (x : Span) : size ≤ grow size x := by
  unfold grow
  split <;> omega

theorem grow_of_inside {size : ℕ} {x : Span} (h : Inside size x) : grow size x = size := by
  have := inside_iff.mp h
  unfold grow
  split <;> omega

theorem le_foldl_grow (size : ℕ) (spans : List Span) : size ≤ spans.foldl grow size := by
  induction spans generalizing size with
  | nil => rfl
  | cons x spans ih => exact (le_grow size x).trans (ih _)

theorem end_le_foldl_grow {size : ℕ} {x : Span} {spans : List Span} (hx : x ∈ spans)
    (hpos : 0 < x.2) : x.1 + x.2 ≤ spans.foldl grow size := by
  induction spans generalizing size with
  | nil => cases hx
  | cons y spans ih =>
    obtain rfl | hx := List.mem_cons.mp hx
    · refine Nat.le_trans ?_ (le_foldl_grow _ spans)
      rw [grow, if_neg (by omega)]
      omega
    · exact ih hx

theorem foldl_grow_of_inside {size : ℕ} {spans : List Span} (h : ∀ x ∈ spans, Inside size x) :
    spans.foldl grow size = size := by
  induction spans with
  | nil => rfl
  | cons x spans ih =>
    rw [List.foldl_cons, grow_of_inside (h x List.mem_cons_self)]
    exact ih fun y hy => h y (List.mem_cons_of_mem _ hy)

variable {α : Type*} (d : α) (file : List α) (blocks : List (ℕ × List α)) {x : ℕ × List α}

theorem length_overwrite (off : ℕ) (xs : List α) :
    (overwrite d file off xs).length = grow file.length (off, xs.length) := by
  unfold overwrite grow
  cases xs with
  | nil => rfl
  | cons y ys =>
    simp
    omega

theorem ofList_overwrite (off : ℕ) (xs : List α) :
    ofList d (overwrite d file off xs) = store (ofList d file) off xs := by
  cases xs with
  | nil => rfl
  | cons y ys =>
    funext i
    have hhead : ((file ++ List.replicate (off - file.length) d).take off).length = off := by
      simp
      omega
    rw [store_apply, overwrite, List.isEmpty_cons, if_neg Bool.false_ne_true, List.append_assoc]
    by_cases hlo : off ≤ i
    · rw [if_pos hlo, ofList, List.getD_append_right _ _ _ _ (hhead.symm ▸ hlo), hhead,
        List.getD_eq_getElem?_getD, List.getElem?_append]
      split
      · next hin => rw [List.getElem?_eq_getElem hin, Option.getD_some, Option.getD_some]
      · next hout =>
        have hshift : off + (y :: ys).length + (i - off - (y :: ys).length) = i := by omega
        rw [List.getElem?_eq_none (Nat.le_of_not_lt hout), List.getElem?_drop, hshift,
          Option.getD_none, ofList, List.getD_eq_getElem?_getD]
    · have hlt := Nat.lt_of_not_le hlo
      rw [if_neg hlo, ofList, List.getD_append _ _ _ _ (hhead.symm ▸ hlt), List.getD_eq_getElem?_getD,
        List.getElem?_take_of_lt hlt, ← List.getD_eq_getElem?_getD]
      exact congrFun (ofList_append_replicate d file _) i

theorem length_overwriteAll :
    (overwriteAll d file blocks).length = (blocks.map span).foldl grow file.length := by
  induction blocks generalizing file with
  | nil => rfl
  | cons x blocks ih =>
    have hfirst := length_overwrite d file x.1 x.2
    rw [overwriteAll, List.foldl_cons, ← overwriteAll, ih, hfirst]
    rfl

theorem ofList_overwriteAll :
    ofList d (overwriteAll d file blocks) = storeAll (ofList d file) blocks := by
  induction blocks generalizing file with
  | nil => rfl
  | cons x blocks ih =>
    rw [overwriteAll, List.foldl_cons, ← overwriteAll, ih, ofList_overwrite]
    rfl

theorem load_ofList_eq_take_drop {file : List α} {off n : ℕ} (h : off + n ≤ file.length) :
    load (ofList d file) off n = (file.drop off).take n := by
  refine List.ext_getElem (by simp; omega) fun i hi hi' => ?_
  have hin : off + i < file.length := by
    rw [load_length] at hi
    omega
  rw [load_getElem, ofList, List.getD_eq_getElem _ _ hin, List.getElem_take, List.getElem_drop]

variable {blocks}

theorem end_le_length_overwriteAll (hx : x ∈ blocks) (hnil : x.2 ≠ []) :
    x.1 + x.2.length ≤ (overwriteAll d file blocks).length := by
  have hpos : 0 < (span x).2 := List.length_pos_iff.mpr hnil
  rw [length_overwriteAll]
  exact end_le_foldl_grow (List.mem_map_of_mem hx) hpos

/-- Each of the blocks can be read again where it has been written. -/
theorem take_drop_overwriteAll (h : (blocks.map span).Pairwise Apart) (hx : x ∈ blocks) :
    ((overwriteAll d file blocks).drop x.1).take x.2.length = x.2 := by
  by_cases hnil : x.2 = []
  · simp [hnil]
  · have hpos : 0 < (span x).2 := List.length_pos_iff.mpr hnil
    have hend : x.1 + x.2.length ≤ (overwriteAll d file blocks).length := by
      rw [length_overwriteAll]
      exact end_le_foldl_grow (List.mem_map_of_mem hx) hpos
    rw [← load_ofList_eq_take_drop d hend, ofList_overwriteAll]
    exact load_storeAll_of_apart h hx

end Files

end Extents
