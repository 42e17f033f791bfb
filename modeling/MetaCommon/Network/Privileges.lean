import MetaCommon.Network.ChannelAccess

/-!
# Property and file in step

An operation settles if it returns with its property and its entry equal and the others untouched,
or fails, not with an exception of the JSON library, and changes nothing. `run_settles_iff` says in
which runs all of them do.
-/

namespace MetaCommon.Network

open Runs

/-! ### Assignments to a JSON value -/

namespace Json

/-- Whether the value can be indexed. -/
def usable : Json → Bool
  | null | object _ => true
  | _ => false

variable (key : String) (j : Json)

theorem member_insertEntry (k : String) (v : Json) (ms : List (String × Json)) :
    (object (FlatMap.insertEntry key v ms)).member k =
      if key = k then some v else (object ms).member k := by
  simp only [member]
  rw [FlatMap.find?_insertEntry]
  split_ifs <;> rfl

theorem index_cases :
    (∃ ms, j.index key = .ok ms ∧ j.usable = true ∧
      (∀ s, (object ms).member key = some (string s) → j.member key = some (string s)) ∧
      ∀ other ≠ key, (object ms).member other = j.member other) ∨
    j.index key = .error .typeError ∧ j.usable = false := by
  cases j with
  | null =>
    refine .inl ⟨_, rfl, rfl, fun s hs => ?_, fun other ho => ?_⟩
    · simp [member] at hs
    · simp [member, ho.symm]
  | object ms =>
    by_cases hk : (ms.find? fun m => m.1 = key).isSome
    · exact .inl ⟨ms, congrArg _ (if_pos hk), rfl, fun s => id, fun other _ => rfl⟩
    · refine .inl ⟨_, congrArg _ (if_neg hk), rfl, fun s hs => ?_, fun other ho => ?_⟩
      · rw [member_insertEntry, if_pos rfl] at hs
        cases hs
      · rw [member_insertEntry, if_neg ho.symm]
  | boolean => exact .inr ⟨rfl, rfl⟩
  | number => exact .inr ⟨rfl, rfl⟩
  | string => exact .inr ⟨rfl, rfl⟩
  | array => exact .inr ⟨rfl, rfl⟩
  | discarded => exact .inr ⟨rfl, rfl⟩

theorem setString_cases (s : String) :
    (∃ ms, j.setString key s = .ok (object ms) ∧ j.usable = true ∧
      (object ms).member key = some (string s) ∧
      ∀ other ≠ key, (object ms).member other = j.member other) ∨
    j.setString key s = .error .typeError ∧ j.usable = false := by
  unfold setString
  rcases index_cases key j with ⟨ms, hms, hj, -, hother⟩ | ⟨he, hj⟩
  · refine .inl ⟨_, by rw [hms]; rfl, hj, ?_, fun other ho => ?_⟩
    · rw [member_insertEntry, if_pos rfl]
    · rw [member_insertEntry, if_neg ho.symm, hother other ho]
  · exact .inr ⟨by rw [he]; rfl, hj⟩

/-- A read that fails may make an entry, but only of the name that is read. -/
theorem getString_cases :
    (∃ s, (j.getString key).1 = .ok s ∧ j.usable = true ∧ j.member key = some (string s)) ∨
    ∃ e, (j.getString key).1 = .error e ∧ (j.getString key).2.usable = j.usable ∧
      ∀ other ≠ key, (j.getString key).2.member other = j.member other := by
  unfold getString
  rcases index_cases key j with ⟨ms, hms, hj, hkey, hother⟩ | ⟨he, hj⟩
  · rw [hms]
    simp only
    split
    · next s hs => exact .inl ⟨s, rfl, hj, hkey s hs⟩
    · exact .inr ⟨_, rfl, hj.symm, hother⟩
  · rw [he]
    exact .inr ⟨_, rfl, rfl, fun other _ => rfl⟩

end Json

/-! ### One operation -/

namespace Channels

variable (c : Channels)

/-- What an operation on the entry of `name` promises for its result. -/
def Settles (name : String) (r : Except Exn String × Channels) : Prop :=
  match r.1 with
  | .ok _ => r.2.entry name = some (.string (r.2.maxPrivilege name)) ∧
      ∀ other ≠ name, r.2.entry other = c.entry other
  | .error e => e ≠ .typeError ∧ r.2.file = c.file ∧ r.2.maxPrivilege = c.maxPrivilege

/-- Storing an entry settles: what is read can be indexed, and a file that opens for writing alone
has no other entries. -/
def Keeps (opens : Opens) (name : String) : Prop :=
  (c.readJsonFile opens).usable = true ∧
    (opens.write = true → opens.read = false → ∀ other ≠ name, c.entry other = none)

/-- The condition on an operation and the state it finds: a refused write settles, one of the
current value does if the file has it too, and all others are up to the file. -/
def Clean : Operation → Prop
  | .updateInfo opens name => c.Keeps opens name
  | .maxPrivilege answer opens name priv =>
    match c.populate answer with
    | .error _ => True
    | .ok c' =>
      if priv ≠ "" ∧ priv ∉ c'.supportedPrivList then True
      else if c.maxPrivilege name = priv then c.entry name = some (.string priv)
      else c.Keeps opens name

theorem member_readJsonFile_iff (opens : Opens) (name : String) :
    (∀ other ≠ name, (c.readJsonFile opens).member other = c.entry other) ↔
      (opens.read = false → ∀ other ≠ name, c.entry other = none) := by
  unfold readJsonFile entry
  cases opens.read with
  | false =>
    refine ⟨fun h _ other ho => (h other ho).symm, fun h other ho => (h rfl other ho).symm⟩
  | true =>
    refine ⟨fun _ h => absurd h (by decide), fun _ other _ => ?_⟩
    cases c.file <;> rfl

theorem storePrivilege_settles_iff (opens : Opens) (intf priv : String) (j : Json) :
    c.Settles intf (c.storePrivilege opens intf priv j) ↔ j.usable = true ∧
      (opens.write = true → ∀ other ≠ intf, j.member other = c.entry other) := by
  unfold storePrivilege
  rcases j.setString_cases intf priv with ⟨ms, hms, hj, hintf, hother⟩ | ⟨he, hj⟩
  · rw [hms, hj]
    obtain ⟨read, _ | _⟩ := opens
    · simp [writeJsonFile, Settles]
    · simp only [writeJsonFile, Settles, setMaxPrivilege, entry, if_true, ne_eq,
        not_true_eq_false, if_false, Option.bind_some, Function.update_self, hintf, true_and,
        true_implies]
      exact forall₂_congr fun other ho => by rw [hother other ho]
  · rw [he, hj]
    simp [Settles]

theorem getChannelPrivilege_settles_iff (opens : Opens) (name : String) :
    c.Settles name (c.getChannelPrivilege opens name) ↔ c.Keeps opens name := by
  have hkeeps := c.member_readJsonFile_iff opens name
  unfold getChannelPrivilege Keeps
  generalize hr : (c.readJsonFile opens) = j at hkeeps ⊢
  simp only
  split
  · rcases j.getString_cases name with ⟨s, hs, hj, hm⟩ | ⟨e, he, hj, hother⟩
    · -- The file has been read, and its entry is a string.
      obtain ⟨j', h⟩ : ∃ j', j.getString name = (.ok s, j') := ⟨_, Prod.ext hs rfl⟩
      have hread : opens.read = true := by
        by_contra h
        rw [readJsonFile, if_neg h] at hr
        rw [← hr] at hm
        cases hm
      have hentry : c.entry name = some (.string s) := by
        rw [readJsonFile, if_pos hread] at hr
        rw [← hm, ← hr, entry]
        cases c.file <;> rfl
      rw [h, hj]
      simp [Settles, setMaxPrivilege, entry, hread]
      exact hentry
    · obtain ⟨e, j', h⟩ : ∃ e j', j.getString name = (.error e, j') := ⟨e, _, Prod.ext he rfl⟩
      rw [h] at hj hother ⊢
      simp only at hj hother ⊢
      rw [storePrivilege_settles_iff, hj, ← hkeeps]
      refine and_congr_right fun _ => imp_congr_right fun _ => forall₂_congr fun other ho => ?_
      rw [hother other ho]
  · rw [storePrivilege_settles_iff, hkeeps]

theorem populate_cases (answer : AllPrivileges) :
    c.populate answer = .error .sdBusError ∨
      ∃ privileges, c.populate answer = .ok { c with supportedPrivList := privileges } := by
  unfold populate
  split
  · cases answer with
    | unavailable => exact .inr ⟨_, rfl⟩
    | throws => exact .inl rfl
    | reply privileges => exact .inr ⟨privileges, rfl⟩
  · exact .inr ⟨_, rfl⟩

theorem writeMaxPrivilege_settles_iff (answer : AllPrivileges) (opens : Opens)
    (name priv : String) : c.Settles name (c.writeMaxPrivilege answer opens name priv) ↔
      c.Clean (.maxPrivilege answer opens name priv) := by
  unfold writeMaxPrivilege
  rcases c.populate_cases answer with h | ⟨privileges, h⟩
  · simp only [Clean, h]
    simp [Settles]
  · simp only [Clean, h]
    by_cases hinvalid : priv ≠ "" ∧ priv ∉ privileges
    · rw [if_pos hinvalid, if_pos hinvalid]
      simp [Settles]
    · rw [if_neg hinvalid, if_neg hinvalid]
      by_cases hcurrent : c.maxPrivilege name = priv
      · rw [if_pos hcurrent, if_pos hcurrent]
        simp [Settles, hcurrent, entry]
      · rw [if_neg hcurrent, if_neg hcurrent]
        have hstore := storePrivilege_settles_iff { c with supportedPrivList := privileges } opens
          name priv (c.readJsonFile opens)
        have hread := c.member_readJsonFile_iff opens name
        exact hstore.trans (and_congr_right fun _ => imp_congr_right fun _ => hread)

theorem settles_iff (o : Operation) : c.Settles o.name (c.call o) ↔ c.Clean o := by
  cases o with
  | updateInfo opens name => exact c.getChannelPrivilege_settles_iff opens name
  | maxPrivilege answer opens name priv =>
    exact c.writeMaxPrivilege_settles_iff answer opens name priv

/-- Every operation of a run settles exactly if each meets the condition in the state it finds. -/
theorem run_settles_iff (os : List Operation) :
    Guarded step (fun c o => c.Settles o.name (c.call o)) c os ↔ Guarded step Clean c os :=
  guarded_congr (I := fun _ => True) (fun _ _ _ _ => trivial) (fun c o _ => c.settles_iff o) trivial

/-- The file is not JSON, and an interface is updated. -/
def corrupted : Channels := ⟨some .discarded, fun _ => "", ["priv-admin"]⟩

/-- There is no entry for "eth1" yet, and its property is set to the value it has. -/
def unwritten : Channels :=
  ⟨some (.object [("eth0", .string "priv-user")]), fun _ => "priv-admin", ["priv-admin"]⟩

/-- The exception escapes at the first file, and at the second the write returns without an
entry. -/
theorem not_run_settles :
    ¬ Guarded step (fun c o => c.Settles o.name (c.call o)) corrupted
      [.updateInfo ⟨true, true⟩ "eth0"] ∧
    ¬ Guarded step (fun c o => c.Settles o.name (c.call o)) unwritten
      [.maxPrivilege .unavailable ⟨true, true⟩ "eth1" "priv-admin"] := by
  constructor
  · rintro ⟨⟨h, -⟩, -⟩
    exact h rfl
  · rintro ⟨⟨h, -⟩, -⟩
    cases h

end Channels

end MetaCommon.Network
