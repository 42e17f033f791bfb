import Mathlib.Data.List.Basic
import Mathlib.Tactic.Common

/-!
# Forests and their streams of tokens

A forest is written as a stream that enters and leaves its nodes. The streams that come from a
forest are those in which a counter of the open nodes never has to go below zero and ends at zero.
-/

inductive Forest (α β : Type*) where
  | nil
  | leaf (b : β) (rest : Forest α β)
  | node (a : α) (children rest : Forest α β)
  deriving DecidableEq

namespace Forest

variable {α β : Type*}

inductive Token (α β : Type*) where
  | enter (a : α)
  | leave
  | leaf (b : β)
  deriving DecidableEq

def tokens : Forest α β → List (Token α β)
  | nil => []
  | leaf b rest => .leaf b :: rest.tokens
  | node a children rest => .enter a :: children.tokens ++ .leave :: rest.tokens

def leaves : Forest α β → List β
  | nil => []
  | leaf b rest => b :: rest.leaves
  | node _ children rest => children.leaves ++ rest.leaves

def height : Forest α β → ℕ
  | nil => 0
  | leaf _ rest => rest.height
  | node _ children rest => max (children.height + 1) rest.height

/-- The number of nodes left open, if no token leaves a node where none is open. -/
def openAfter : ℕ → List (Token α β) → Option ℕ
  | d, [] => some d
  | d, .enter _ :: ts => openAfter (d + 1) ts
  | 0, .leave :: _ => none
  | d + 1, .leave :: ts => openAfter d ts
  | d, .leaf _ :: ts => openAfter d ts

/-- The largest number of nodes that are open at once. -/
def mostOpen : ℕ → List (Token α β) → ℕ
  | d, [] => d
  | d, .enter _ :: ts => max d (mostOpen (d + 1) ts)
  | d, .leave :: ts => max d (mostOpen (d - 1) ts)
  | d, .leaf _ :: ts => mostOpen d ts

def leavesOf : List (Token α β) → List β
  | [] => []
  | .leaf b :: ts => b :: leavesOf ts
  | .enter _ :: ts => leavesOf ts
  | .leave :: ts => leavesOf ts

/-! ### From a forest to its stream -/

theorem openAfter_tokens_append (f : Forest α β) (d : ℕ) (ts : List (Token α β)) :
    openAfter d (f.tokens ++ ts) = openAfter d ts := by
  induction f generalizing d ts with
  | nil => rfl
  | leaf b rest ih => exact ih d ts
  | node a children rest ihc ihr =>
    have hsplit : (node a children rest).tokens ++ ts =
        .enter a :: (children.tokens ++ (.leave :: (rest.tokens ++ ts))) := by
      simp [tokens]
    rw [hsplit, openAfter, ihc, openAfter, ihr]

@[simp] theorem openAfter_tokens (f : Forest α β) (d : ℕ) :
    openAfter d f.tokens = some d := by
  have h := openAfter_tokens_append f d []
  rwa [List.append_nil] at h

theorem le_mostOpen (d : ℕ) (ts : List (Token α β)) : d ≤ mostOpen d ts := by
  induction ts generalizing d with
  | nil => exact Nat.le_refl _
  | cons t ts ih =>
    cases t with
    | enter a => exact Nat.le_max_left _ _
    | leave => exact Nat.le_max_left _ _
    | leaf b => exact ih d

theorem mostOpen_tokens_append (f : Forest α β) (d : ℕ) (ts : List (Token α β)) :
    mostOpen d (f.tokens ++ ts) = max (d + f.height) (mostOpen d ts) := by
  induction f generalizing d ts with
  | nil =>
    have hle := le_mostOpen d ts
    simp only [tokens, height, List.nil_append]
    omega
  | leaf b rest ih => exact ih d ts
  | node a children rest ihc ihr =>
    have hsplit : (node a children rest).tokens ++ ts =
        .enter a :: (children.tokens ++ (.leave :: (rest.tokens ++ ts))) := by
      simp [tokens]
    have hle := le_mostOpen d ts
    rw [hsplit, mostOpen, ihc, mostOpen, Nat.add_sub_cancel, ihr, height]
    omega

@[simp] theorem mostOpen_tokens (f : Forest α β) (d : ℕ) : mostOpen d f.tokens = d + f.height := by
  have h := mostOpen_tokens_append f d []
  rw [List.append_nil] at h
  rw [h, mostOpen]
  omega

theorem leavesOf_append (ss ts : List (Token α β)) :
    leavesOf (ss ++ ts) = leavesOf ss ++ leavesOf ts := by
  induction ss with
  | nil => rfl
  | cons s ss ih =>
    cases s with
    | leaf b => exact congrArg (b :: ·) ih
    | enter a => exact ih
    | leave => exact ih

@[simp] theorem leavesOf_tokens (f : Forest α β) : leavesOf f.tokens = f.leaves := by
  induction f with
  | nil => rfl
  | leaf b rest ih => exact congrArg (b :: ·) ih
  | node a children rest ihc ihr =>
    rw [tokens, List.cons_append, leavesOf, leavesOf_append, ihc, leavesOf, ihr, leaves]

/-! ### From a stream to its forest -/

/-- The stream of what is left of the nodes that are open: each is left, and then comes the rest of
the forest it stands in. -/
def closing : List (Forest α β) → List (Token α β)
  | [] => []
  | f :: fs => .leave :: f.tokens ++ closing fs

/-- The induction is on the stream: entering a node takes the first two forests of the rest as its
children and what follows it. -/
theorem exists_tokens_append_closing {d : ℕ} {ts : List (Token α β)}
    (h : openAfter d ts = some 0) :
    ∃ (f : Forest α β) (fs : List (Forest α β)), fs.length = d ∧ ts = f.tokens ++ closing fs := by
  induction ts generalizing d with
  | nil =>
    have hd : d = 0 := by simpa [openAfter] using h
    exact ⟨nil, [], hd.symm, rfl⟩
  | cons t ts ih =>
    cases t with
    | enter a =>
      obtain ⟨children, fs, hlen, hts⟩ := ih (d := d + 1) h
      cases fs with
      | nil => exact absurd hlen (by simp)
      | cons rest fs =>
        have hlen' : fs.length = d := by simpa using hlen
        refine ⟨node a children rest, fs, hlen', ?_⟩
        rw [hts]
        simp [tokens, closing]
    | leave =>
      cases d with
      | zero => exact absurd h (by simp [openAfter])
      | succ d =>
        obtain ⟨f, fs, hlen, hts⟩ := ih (d := d) h
        refine ⟨nil, f :: fs, by simp [hlen], ?_⟩
        rw [hts]
        rfl
    | leaf b =>
      obtain ⟨f, fs, hlen, hts⟩ := ih (d := d) h
      refine ⟨leaf b f, fs, hlen, ?_⟩
      rw [hts]
      rfl

theorem openAfter_eq_some_zero_iff {ts : List (Token α β)} :
    openAfter 0 ts = some 0 ↔ ∃ f : Forest α β, f.tokens = ts := by
  constructor
  · intro h
    obtain ⟨f, fs, hlen, hts⟩ := exists_tokens_append_closing h
    have hfs : fs = [] := List.length_eq_zero_iff.mp hlen
    subst hfs
    exact ⟨f, by simpa [closing] using hts.symm⟩
  · rintro ⟨f, rfl⟩
    exact openAfter_tokens f 0

/-- The stream of a forest, with a further one behind it, gives both back: the end of a node is
where the count of open nodes would go below zero. -/
theorem tokens_append_inj {f g : Forest α β} {ts us : List (Token α β)}
    (hts : ∀ t ∈ ts.head?, t = .leave) (hus : ∀ t ∈ us.head?, t = .leave)
    (h : f.tokens ++ ts = g.tokens ++ us) : f = g ∧ ts = us := by
  induction f generalizing g ts us with
  | nil =>
    cases g with
    | nil => exact ⟨rfl, h⟩
    | leaf b rest => exact absurd (hts (.leaf b) (congrArg List.head? h)) (by simp)
    | node a children rest => exact absurd (hts (.enter a) (congrArg List.head? h)) (by simp)
  | leaf b rest ih =>
    cases g with
    | nil => exact absurd (hus (.leaf b) (congrArg List.head? h.symm)) (by simp)
    | leaf b' rest' =>
      obtain ⟨hb, hrest⟩ := List.cons.inj h
      obtain ⟨rfl, htail⟩ := ih hts hus hrest
      exact ⟨by rw [Token.leaf.inj hb], htail⟩
    | node a children rest' => exact absurd (List.cons.inj h).1 (by simp)
  | node a children rest ihc ihr =>
    cases g with
    | nil => exact absurd (hus (.enter a) (congrArg List.head? h.symm)) (by simp)
    | leaf b rest' => exact absurd (List.cons.inj h).1 (by simp)
    | node a' children' rest' =>
      obtain ⟨ha, hrest⟩ := List.cons.inj h
      simp only [List.append_eq, List.append_assoc] at hrest
      obtain ⟨rfl, hleave⟩ := ihc (by simp) (by simp) hrest
      obtain ⟨rfl, htail⟩ := ihr hts hus (List.cons.inj hleave).2
      exact ⟨by rw [Token.enter.inj ha], htail⟩

theorem tokens_injective : Function.Injective (tokens : Forest α β → List (Token α β)) := by
  intro f g h
  have happ : f.tokens ++ [] = g.tokens ++ [] := by rw [h]
  exact (tokens_append_inj (by simp) (by simp) happ).1

/-! ### One level of a forest -/

def leavesHere : Forest α β → List β
  | nil => []
  | leaf b rest => b :: rest.leavesHere
  | node _ _ rest => rest.leavesHere

def nodesHere : Forest α β → List (α × Forest α β)
  | nil => []
  | leaf _ rest => rest.nodesHere
  | node a children rest => (a, children) :: rest.nodesHere

/-- No leaf comes after a node. -/
def LeavesFirst : Forest α β → Prop
  | nil => True
  | leaf _ rest => rest.LeavesFirst
  | node _ _ rest => rest.leavesHere = []

/-- What stands directly below each of the nodes, at any depth, is as it should be. -/
def BelowAll (P : Forest α β → Prop) : Forest α β → Prop
  | nil => True
  | leaf _ rest => rest.BelowAll P
  | node _ children rest => P children ∧ children.BelowAll P ∧ rest.BelowAll P

/-- All nodes, at any depth, have such labels. -/
def NodesAll (P : α → Prop) : Forest α β → Prop
  | nil => True
  | leaf _ rest => rest.NodesAll P
  | node a children rest => P a ∧ children.NodesAll P ∧ rest.NodesAll P

def ofNodes : List (α × Forest α β) → Forest α β
  | [] => nil
  | n :: ns => node n.1 n.2 (ofNodes ns)

/-- First the leaves and then the nodes. -/
def level : List β → List (α × Forest α β) → Forest α β
  | [], ns => ofNodes ns
  | b :: bs, ns => leaf b (level bs ns)

def nodeTokens (n : α × Forest α β) : List (Token α β) := .enter n.1 :: n.2.tokens ++ [.leave]

theorem tokens_level (bs : List β) (ns : List (α × Forest α β)) :
    (level bs ns).tokens = bs.map .leaf ++ ns.flatMap nodeTokens := by
  induction bs with
  | nil =>
    induction ns with
    | nil => rfl
    | cons n ns ih =>
      have hns : (ofNodes ns).tokens = ns.flatMap nodeTokens := ih
      simp [level, ofNodes, tokens, nodeTokens, hns]
  | cons b bs ih => exact congrArg (Token.leaf b :: ·) ih

@[simp] theorem leavesHere_level (bs : List β) (ns : List (α × Forest α β)) :
    (level bs ns).leavesHere = bs := by
  induction bs with
  | nil =>
    induction ns with
    | nil => rfl
    | cons n ns ih => exact ih
  | cons b bs ih => exact congrArg (b :: ·) ih

@[simp] theorem nodesHere_level (bs : List β) (ns : List (α × Forest α β)) :
    (level bs ns).nodesHere = ns := by
  induction bs with
  | nil =>
    induction ns with
    | nil => rfl
    | cons n ns ih => exact congrArg (n :: ·) ih
  | cons b bs ih => exact ih

theorem leavesFirst_level (bs : List β) (ns : List (α × Forest α β)) :
    (level bs ns).LeavesFirst := by
  induction bs with
  | nil =>
    cases ns with
    | nil => trivial
    | cons n ns => exact leavesHere_level [] ns
  | cons b bs ih => exact ih

theorem belowAll_level {P : Forest α β → Prop} (bs : List β) (ns : List (α × Forest α β)) :
    (level bs ns).BelowAll P ↔ ∀ n ∈ ns, P n.2 ∧ n.2.BelowAll P := by
  induction bs with
  | nil =>
    induction ns with
    | nil => simp [level, ofNodes, BelowAll]
    | cons n ns ih =>
      have hns : (ofNodes ns).BelowAll P ↔ ∀ n ∈ ns, P n.2 ∧ n.2.BelowAll P := ih
      rw [level, ofNodes, BelowAll, hns, List.forall_mem_cons, and_assoc]
  | cons b bs ih => exact ih

theorem nodesAll_level {P : α → Prop} (bs : List β) (ns : List (α × Forest α β)) :
    (level bs ns).NodesAll P ↔ ∀ n ∈ ns, P n.1 ∧ n.2.NodesAll P := by
  induction bs with
  | nil =>
    induction ns with
    | nil => simp [level, ofNodes, NodesAll]
    | cons n ns ih =>
      have hns : (ofNodes ns).NodesAll P ↔ ∀ n ∈ ns, P n.1 ∧ n.2.NodesAll P := ih
      rw [level, ofNodes, NodesAll, hns, List.forall_mem_cons, and_assoc]
  | cons b bs ih => exact ih

theorem height_level_le {k : ℕ} (bs : List β) {ns : List (α × Forest α β)}
    (h : ∀ n ∈ ns, n.2.height + 1 ≤ k) : (level bs ns).height ≤ k := by
  induction bs with
  | nil =>
    induction ns with
    | nil => exact Nat.zero_le k
    | cons n ns ih =>
      rw [List.forall_mem_cons] at h
      exact Nat.max_le.mpr ⟨h.1, ih h.2⟩
  | cons b bs ih => exact ih

end Forest
