import MetaCommon.Lib.Regex

/-!
# Policies and domains by their names

The name of a request becomes a part of a regular expression, which is searched in the object paths
that the mapper knows. A path should be taken if it ends with the name, as it is. A name whose
characters all stand for themselves is looked up so; any other can be found in another path, missed
or no regular expression at all. And an error of the mapper is reported, but the search goes on.
-/

namespace MetaCommon.NodeManager

inductive LookupMessage
  | internalError
  | resourceNotFound (type name : String)
deriving DecidableEq

/-- The messages in the response, and the paths that the handler is called with. -/
structure LookupResponse where
  messages : List LookupMessage
  handled : List String
deriving DecidableEq

/-- `std::find_if`, where the pattern is compiled for each path; `none` if that throws. -/
def findPath (pattern : String) : List String → Option (Option String)
  | [] => some none
  | objectPath :: objects => match Regex.search pattern objectPath with
    | none => none
    | some true => some (some objectPath)
    | some false => findPath pattern objects

/-- The reply of the mapper: `ec` is whether there is an error, which is reported only. -/
def objectPathReply (pattern type name : String) (ec : Bool) (objects : List String) :
    Option LookupResponse :=
  let errors := if ec then [.internalError] else []
  match findPath pattern objects with
  | none => none
  | some none => some ⟨errors ++ [.resourceNotFound type name], []⟩
  | some (some objectPath) => some ⟨errors, [objectPath]⟩

def getPolicyObjectPath (policyName : String) : Bool → List String → Option LookupResponse :=
  objectPathReply ("Policy/" ++ policyName ++ "$") "Policies" policyName

def getDomainDbusPath (domainName : String) : String :=
  "/xyz/openbmc_project/NodeManager/Domain/" ++ domainName

def getDomainObjectPath (domainName : String) : Bool → List String → Option LookupResponse :=
  objectPathReply (getDomainDbusPath domainName ++ "$") "Domains" domainName

/-! ### What a lookup should do -/

def EndsWith (path tail : String) : Prop := tail.toList <:+ path.toList

/-- The handler is called once, with a path of that tail; or there is one error and no call. -/
structure LooksUp (tail type name : String) (ec : Bool) (objects : List String)
    (reply : Option LookupResponse) : Prop where
  failed : ec = true → reply = some ⟨[.internalError], []⟩
  found : ec = false → ∀ path ∈ objects, EndsWith path tail →
    ∃ path ∈ objects, EndsWith path tail ∧ reply = some ⟨[], [path]⟩
  missing : ec = false → (∀ path ∈ objects, ¬ EndsWith path tail) →
    reply = some ⟨[.resourceNotFound type name], []⟩

def Found (pattern path : String) : Prop := Regex.search pattern path = some true

/-- The pattern finds in the paths what ends with the tail. -/
structure FindsTail (pattern tail : String) (objects : List String) : Prop where
  compiles : objects = [] ∨ (Regex.compile pattern.toList).isSome
  /-- The first path that the pattern is found in has the tail. -/
  first : ∀ before path after, objects = before ++ path :: after → Found pattern path →
    (∀ other ∈ before, ¬ Found pattern other) → EndsWith path tail
  /-- Where some path has the tail, the pattern is found. -/
  hits : ∀ path ∈ objects, EndsWith path tail → ∃ other ∈ objects, Found pattern other

/-! ### The search -/

section Search

variable {pattern tail type name : String} {objects : List String}

theorem findPath_eq {r : Regex.Node} (hr : Regex.compile pattern.toList = some r) :
    findPath pattern objects = some (objects.find? fun path => Regex.found r none path.toList) := by
  induction objects with
  | nil => rfl
  | cons objectPath objects ih =>
    unfold findPath
    have hsearch : Regex.search pattern objectPath =
        some (Regex.found r none objectPath.toList) := by
      rw [Regex.search, hr, Option.map_some]
    rw [hsearch]
    cases hfound : Regex.found r none objectPath.toList with
    | true => simp [hfound]
    | false => simpa [hfound] using ih

theorem found_iff {r : Regex.Node} (hr : Regex.compile pattern.toList = some r) (path : String) :
    Found pattern path ↔ Regex.found r none path.toList = true := by
  rw [Found, Regex.search, hr, Option.map_some, Option.some_inj]

theorem findPath_throws (hr : Regex.compile pattern.toList = none) (hobjects : objects ≠ []) :
    findPath pattern objects = none := by
  cases objects with
  | nil => exact absurd rfl hobjects
  | cons objectPath objects => simp [findPath, Regex.search, hr]

theorem looksUp_ne_none {ec : Bool} {reply : Option LookupResponse}
    (h : LooksUp tail type name ec objects reply) : reply ≠ none := by
  intro hnone
  cases ec with
  | true => exact nomatch hnone.symm.trans (h.failed rfl)
  | false =>
    by_cases hall : ∀ path ∈ objects, ¬ EndsWith path tail
    · exact nomatch hnone.symm.trans (h.missing rfl hall)
    · push Not at hall
      obtain ⟨path, hmem, hends⟩ := hall
      obtain ⟨_, -, -, hreply⟩ := h.found rfl path hmem hends
      exact nomatch hnone.symm.trans hreply

theorem not_looksUp_of_error :
    ¬ LooksUp tail type name true objects (objectPathReply pattern type name true objects) := by
  intro h
  have hfailed := h.failed rfl
  unfold objectPathReply at hfailed
  rcases hpath : findPath pattern objects with _ | _ | objectPath <;> simp [hpath] at hfailed

theorem find?_first {before after : List String} {path : String}
    (hobjects : objects = before ++ path :: after) (hfound : Found pattern path)
    (hbefore : ∀ other ∈ before, ¬ Found pattern other) :
    (objects.find? fun path => Regex.search pattern path = some true) = some path :=
  List.find?_eq_some_iff_append.mpr
    ⟨decide_eq_true hfound, before, after, hobjects, fun other hother => by
      simpa [Found] using hbefore other hother⟩

/-- The search comes to its end without a path. -/
theorem looksUp_missing_iff (hmissing : ∀ path ∈ objects, ¬ Found pattern path)
    (hcompiles : objects = [] ∨ (Regex.compile pattern.toList).isSome) :
    LooksUp tail type name false objects (some ⟨[.resourceNotFound type name], []⟩) ↔
      FindsTail pattern tail objects := by
  constructor
  · intro h
    refine ⟨hcompiles, fun before path after heq hfound _ => ?_, fun path hmem hends => ?_⟩
    · exact absurd hfound (hmissing path (heq ▸ List.mem_append_right _ List.mem_cons_self))
    · obtain ⟨_, -, -, hreply⟩ := h.found rfl path hmem hends
      exact absurd hreply (by simp)
  · intro h
    refine ⟨fun hec => (nomatch hec), fun _ path hmem hends => ?_, fun _ _ => rfl⟩
    obtain ⟨other, hother, hfound⟩ := h.hits path hmem hends
    exact absurd hfound (hmissing other hother)

/-- The search ends with a path. -/
theorem looksUp_found_iff {before after : List String} {path : String}
    (hobjects : objects = before ++ path :: after) (hfound : Found pattern path)
    (hbefore : ∀ other ∈ before, ¬ Found pattern other)
    (hcompiles : (Regex.compile pattern.toList).isSome) :
    LooksUp tail type name false objects (some ⟨[], [path]⟩) ↔ FindsTail pattern tail objects := by
  have hmem : path ∈ objects := hobjects ▸ List.mem_append_right _ List.mem_cons_self
  constructor
  · intro h
    have hends : EndsWith path tail := by
      by_contra hnot
      by_cases hall : ∀ other ∈ objects, ¬ EndsWith other tail
      · exact absurd (h.missing rfl hall) (by simp)
      · push Not at hall
        obtain ⟨other, hother, hends⟩ := hall
        obtain ⟨path', -, hends', hreply⟩ := h.found rfl other hother hends
        obtain rfl : path = path' := by simpa using hreply
        exact hnot hends'
    refine ⟨.inr hcompiles, fun before' path' after' heq hfound' hbefore' => ?_,
      fun _ _ _ => ⟨path, hmem, hfound⟩⟩
    obtain rfl : path = path' := Option.some.inj <|
      (find?_first hobjects hfound hbefore).symm.trans (find?_first heq hfound' hbefore')
    exact hends
  · intro h
    have hends := h.first before path after hobjects hfound hbefore
    exact ⟨fun hec => (nomatch hec), fun _ _ _ _ => ⟨path, hmem, hends, rfl⟩,
      fun _ hall => absurd hends (hall path hmem)⟩

/-- A lookup is right exactly if the mapper has answered and the pattern finds what has the tail. -/
theorem looksUp_reply_iff (ec : Bool) :
    LooksUp tail type name ec objects (objectPathReply pattern type name ec objects) ↔
      ec = false ∧ FindsTail pattern tail objects := by
  cases ec with
  | true => simp [not_looksUp_of_error]
  | false =>
    rw [and_iff_right rfl]
    unfold objectPathReply
    cases hcompile : Regex.compile pattern.toList with
    | none =>
      by_cases hobjects : objects = []
      · subst hobjects
        exact looksUp_missing_iff (fun _ h => nomatch h) (.inl rfl)
      · rw [findPath_throws hcompile hobjects]
        constructor
        · exact fun h => absurd rfl (looksUp_ne_none h)
        · intro h
          have hcompiles := h.compiles.resolve_left hobjects
          rw [hcompile] at hcompiles
          exact nomatch hcompiles
    | some r =>
      have hcompiles : (Regex.compile pattern.toList).isSome = true := by rw [hcompile]; rfl
      rw [findPath_eq hcompile]
      cases hfind : objects.find? fun path => Regex.found r none path.toList with
      | none =>
        refine looksUp_missing_iff (fun path hmem => ?_) (.inr hcompiles)
        rw [found_iff hcompile]
        exact List.find?_eq_none.mp hfind path hmem
      | some path =>
        obtain ⟨hfound, before, after, hobjects, hbefore⟩ :=
          List.find?_eq_some_iff_append.mp hfind
        refine looksUp_found_iff hobjects ((found_iff hcompile path).mpr hfound)
          (fun other hother => ?_) hcompiles
        rw [found_iff hcompile]
        simpa using hbefore other hother

end Search

/-! ### The two lookups -/

inductive Lookup
  | policy
  | domain

namespace Lookup

def tail (name : String) : Lookup → String
  | policy => "Policy/" ++ name
  | domain => getDomainDbusPath name

def type : Lookup → String
  | policy => "Policies"
  | domain => "Domains"

def reply (name : String) : Lookup → Bool → List String → Option LookupResponse
  | policy => getPolicyObjectPath name
  | domain => getDomainObjectPath name

theorem looksUp_iff_findsTail (l : Lookup) (name : String) (ec : Bool) (objects : List String) :
    LooksUp (l.tail name) l.type name ec objects (l.reply name ec objects) ↔
      ec = false ∧ FindsTail (l.tail name ++ "$") (l.tail name) objects := by
  cases l with
  | policy => exact looksUp_reply_iff ec
  | domain => exact looksUp_reply_iff ec

def stem : Lookup → String
  | policy => "Policy/"
  | domain => "/xyz/openbmc_project/NodeManager/Domain/"

theorem tail_eq (l : Lookup) (name : String) : l.tail name = l.stem ++ name := by
  cases l <;> rfl

theorem plain_stem (l : Lookup) : ∀ c ∈ l.stem.toList, c ∉ Regex.special := by
  have hall : l.stem.toList.all (fun c => decide (c ∉ Regex.special)) = true := by
    cases l <;> rfl
  exact fun c hc => of_decide_eq_true (List.all_eq_true.mp hall c hc)

theorem plain_tail (l : Lookup) {name : String} (hname : ∀ c ∈ name.toList, c ∉ Regex.special) :
    ∀ c ∈ (l.tail name).toList, c ∉ Regex.special := by
  rw [tail_eq, String.toList_append]
  exact List.forall_mem_append.mpr ⟨plain_stem l, hname⟩

/-- A name of characters that stand for themselves is looked up as it is. -/
theorem findsTail_plain (l : Lookup) {name : String} (hname : ∀ c ∈ name.toList, c ∉ Regex.special)
    (objects : List String) : FindsTail (l.tail name ++ "$") (l.tail name) objects := by
  have hplain := plain_tail l hname
  have hfound : ∀ path, Found (l.tail name ++ "$") path ↔ EndsWith path (l.tail name) := by
    intro path
    rw [Found, Regex.search_plain hplain, Option.some_inj, decide_eq_true_iff]
    exact Iff.rfl
  refine ⟨.inr ?_, fun _ path _ _ h _ => (hfound path).mp h,
    fun path hmem hends => ⟨path, hmem, (hfound path).mpr hends⟩⟩
  rw [String.toList_append, show "$".toList = ['$'] from rfl, Regex.compile_plain hplain]
  rfl

/-- An opening bracket makes no regular expression. -/
theorem not_looksUp : ¬ LooksUp (policy.tail "(") policy.type "(" false
    ["/xyz/openbmc_project/NodeManager/Domain/0/Policy/1"]
    (policy.reply "(" false ["/xyz/openbmc_project/NodeManager/Domain/0/Policy/1"]) :=
  fun h => looksUp_ne_none h (by decide)

end Lookup

end MetaCommon.NodeManager
