import MetaCommon.Telemetry.Parameters
import Mathlib.Logic.Function.Basic

/-!
# Replacing a report

A PUT deletes the report of the URL before it looks up the sensors, and adds the report of the body
once all look-ups have been answered. What fails after the deletion leaves the report deleted, and
the report that is added has the id of the body.
-/

namespace MetaCommon.Telemetry

variable {J μ ρ : Type}

structure Report (μ ρ : Type) where
  args : AddReportArgs μ
  readingParams : ρ

/-- The reports of the telemetry service by their ids. -/
abbrev Reports (μ ρ : Type) := String → Option (Report μ ρ)

inductive Reply
  | untouched
  | created
  | success
  | error (m : Message)
  deriving DecidableEq

/-- The telemetry service and the look-ups of sensors, with the errors that they give. A report that
does not exist is answered with `EBADR` by `Delete`. The answers to the look-ups arrive in any
order. -/
structure Backend (μ ρ : Type) where
  deleteError : Option ErrorCode
  deleteError_ne : deleteError ≠ some .EBADR
  retrieveUriToDbusMap : String × String → Option UriToDbus
  arrival : List (String × String) → List (String × String)
  arrival_perm : ∀ nodes, (arrival nodes).Perm nodes
  addError : Option BackendError
  assignId : Reports μ ρ → AddReportArgs μ → String
  assignId_eq : ∀ reports args, args.id ≠ "" → assignId reports args = args.id

namespace Backend

variable (b : Backend μ ρ)

def delete (reports : Reports μ ρ) (id : String) : Option ErrorCode × Reports μ ρ :=
  match b.deleteError with
  | some ec => (some ec, reports)
  | none =>
    match reports id with
    | none => (some .EBADR, reports)
    | some _ => (none, Function.update reports id none)

def add (reports : Reports μ ρ) (report : Report μ ρ) : Option BackendError × Reports μ ρ :=
  match b.addError with
  | some e => (some e, reports)
  | none =>
    let id := b.assignId reports report.args
    match reports id with
    | some _ => (some ⟨.file_exists, ""⟩, reports)
    | none => (none, Function.update reports id (some report))

end Backend

inductive AddReportType
  | create
  | replace

variable (hp : Helpers J μ ρ) (b : Backend μ ρ)

/-- What the callbacks of the look-ups insert. -/
def retrieveMetricPropertyToDbusPaths (chassisSensors : List (String × String)) : UriToDbus :=
  (b.arrival chassisSensors).flatMap fun node => (b.retrieveUriToDbusMap node).getD []

def performAddReport (reports : Reports μ ρ) (args : AddReportArgs μ) (user : ReportUserArgs J)
    (uriToDbus : UriToDbus) (type : AddReportType) : Reports μ ρ × Reply :=
  match hp.readingParams args.metrics uriToDbus with
  | none => (reports, .error .ofHelper)
  | some readingParams =>
    match b.add reports ⟨args, readingParams⟩ with
    | (some e, reports) => (reports, .error (ErrorVerificator.addReport hp e user))
    | (none, reports) =>
      match type with
      | .create => (reports, .created)
      | .replace => (reports, .success)

def handleReportPut (reports : Reports μ ρ) (body : Option (ReportUserArgs J)) (id : String) :
    Reports μ ρ × Reply :=
  match hp.getUserParameters body with
  | .error .silent => (reports, .untouched)
  | .error (.message m) => (reports, .error m)
  | .ok (args, user) =>
    match hp.getChassisSensorNode args.metrics with
    | none => (reports, .error .ofHelper)
    | some chassisSensors =>
      let uriToDbus := retrieveMetricPropertyToDbusPaths b chassisSensors
      match b.delete reports id with
      | (none, reports) => performAddReport hp b reports args user uriToDbus .replace
      | (some ec, reports) =>
        if ec ≠ .EBADR then (reports, .error .internalError)
        else performAddReport hp b reports args user uriToDbus .create

/-! ### What a PUT should do -/

/-- The arguments of a body that is accepted, and the sensors that have been looked up for it. -/
def Prepared (body : Option (ReportUserArgs J)) (args : AddReportArgs μ) (user : ReportUserArgs J)
    (uriToDbus : UriToDbus) : Prop :=
  hp.getUserParameters body = .ok (args, user) ∧
    ∃ chassisSensors, hp.getChassisSensorNode args.metrics = some chassisSensors ∧
      retrieveMetricPropertyToDbusPaths b chassisSensors = uriToDbus

/-- After an error the report is as it was, and otherwise the service has the report of the body
under the id. No other report changes. -/
structure PutRight (reports : Reports μ ρ) (body : Option (ReportUserArgs J)) (id : String) :
    Prop where
  error : ∀ m, (handleReportPut hp b reports body id).2 = .error m →
    ∀ report, reports id = some report → (handleReportPut hp b reports body id).1 id = some report
  success : (∀ m, (handleReportPut hp b reports body id).2 ≠ .error m) →
    ∃ args user uriToDbus readingParams, Prepared hp b body args user uriToDbus ∧
      hp.readingParams args.metrics uriToDbus = some readingParams ∧
      (handleReportPut hp b reports body id).1 id = some ⟨args, readingParams⟩
  others : ∀ other report, other ≠ id → reports other = some report →
    (handleReportPut hp b reports body id).1 other = some report

/-- The reports without the one of the URL. -/
def deleted (reports : Reports μ ρ) (id : String) : Reports μ ρ := Function.update reports id none

/-- Nothing fails from the deletion on: every metric has been found, and the service accepts the
report. -/
def Adds (reports : Reports μ ρ) (args : AddReportArgs μ) (uriToDbus : UriToDbus) : Prop :=
  (∃ readingParams, hp.readingParams args.metrics uriToDbus = some readingParams) ∧
    b.addError = none ∧ reports (b.assignId reports args) = none

variable {hp b}

theorem performAddReport_of_adds {reports : Reports μ ρ} {args : AddReportArgs μ}
    {uriToDbus : UriToDbus} (h : Adds hp b reports args uriToDbus) (user : ReportUserArgs J)
    (type : AddReportType) :
    ∃ readingParams, hp.readingParams args.metrics uriToDbus = some readingParams ∧
      (performAddReport hp b reports args user uriToDbus type).1 =
        Function.update reports (b.assignId reports args) (some ⟨args, readingParams⟩) ∧
      ∀ m, (performAddReport hp b reports args user uriToDbus type).2 ≠ .error m := by
  obtain ⟨⟨readingParams, hparams⟩, hnone, hfree⟩ := h
  refine ⟨readingParams, hparams, ?_⟩
  cases type <;> simp [performAddReport, Backend.add, hparams, hnone, hfree]

theorem performAddReport_of_not_adds {reports : Reports μ ρ} {args : AddReportArgs μ}
    {uriToDbus : UriToDbus} (h : ¬ Adds hp b reports args uriToDbus) (user : ReportUserArgs J)
    (type : AddReportType) :
    ∃ m, performAddReport hp b reports args user uriToDbus type = (reports, .error m) := by
  unfold performAddReport
  cases hparams : hp.readingParams args.metrics uriToDbus with
  | none => exact ⟨_, rfl⟩
  | some readingParams =>
    obtain ⟨e, he⟩ : ∃ e, b.add reports ⟨args, readingParams⟩ = (some e, reports) := by
      unfold Backend.add
      cases hadd : b.addError with
      | some e => exact ⟨e, rfl⟩
      | none =>
        cases hid : reports (b.assignId reports args) with
        | some report => simp [hid]
        | none => exact absurd ⟨⟨_, hparams⟩, hadd, hid⟩ h
    exact ⟨ErrorVerificator.addReport hp e user, by simp only [he]⟩

/-- What follows an accepted body. -/
theorem handleReportPut_of_prepared (reports : Reports μ ρ) (id : String)
    {body : Option (ReportUserArgs J)} {args : AddReportArgs μ} {user : ReportUserArgs J}
    {uriToDbus : UriToDbus} (h : Prepared hp b body args user uriToDbus)
    (hdelete : b.deleteError = none) :
    ∃ type, handleReportPut hp b reports body id =
      performAddReport hp b (deleted reports id) args user uriToDbus type := by
  obtain ⟨hargs, chassisSensors, hchassis, rfl⟩ := h
  unfold handleReportPut deleted Backend.delete
  simp only [hargs, hchassis, hdelete]
  cases hreport : reports id with
  | some report => exact ⟨.replace, rfl⟩
  | none =>
    refine ⟨.create, ?_⟩
    rw [← hreport, Function.update_eq_self]
    simp [hreport]

/-- A request that is refused before the deletion has no effect, nor has one whose deletion
fails. -/
theorem handleReportPut_of_not_prepared (reports : Reports μ ρ) (id : String)
    {body : Option (ReportUserArgs J)}
    (h : ∀ args user uriToDbus, Prepared hp b body args user uriToDbus → b.deleteError ≠ none)
    (hsilent : hp.getUserParameters body ≠ .error .silent) :
    ∃ m, handleReportPut hp b reports body id = (reports, .error m) := by
  unfold handleReportPut
  rcases hargs : hp.getUserParameters body with ⟨m | _⟩ | ⟨args, user⟩
  · exact ⟨m, rfl⟩
  · exact absurd hargs hsilent
  · dsimp only
    cases hchassis : hp.getChassisSensorNode args.metrics with
    | none => exact ⟨_, rfl⟩
    | some chassisSensors =>
      obtain ⟨ec, hec⟩ := Option.ne_none_iff_exists'.mp
        (h args user _ ⟨hargs, chassisSensors, hchassis, rfl⟩)
      have hne : ec ≠ .EBADR := fun he => b.deleteError_ne (he ▸ hec)
      exact ⟨.internalError, by simp [Backend.delete, hec, hne]⟩

theorem deleted_of_ne {reports : Reports μ ρ} {id other : String} (h : other ≠ id) :
    deleted reports id other = reports other := Function.update_of_ne h _ _

theorem deleted_self (reports : Reports μ ρ) (id : String) : deleted reports id id = none :=
  Function.update_self _ _ _

variable (hp b)

/-- The body is not refused without a message. If the deletion succeeds, or there is nothing to
delete, then the report is added under the id of the URL, or there has been no such report. -/
def PutClear (reports : Reports μ ρ) (body : Option (ReportUserArgs J)) (id : String) : Prop :=
  hp.getUserParameters body ≠ .error .silent ∧
    ∀ args user uriToDbus, Prepared hp b body args user uriToDbus → b.deleteError = none →
      (Adds hp b (deleted reports id) args uriToDbus →
        b.assignId (deleted reports id) args = id) ∧
      (¬ Adds hp b (deleted reports id) args uriToDbus → reports id = none)

variable {hp b}

theorem putRight_of_error {reports : Reports μ ρ} {body : Option (ReportUserArgs J)} {id : String}
    {m : Message} (h : handleReportPut hp b reports body id = (reports, .error m)) :
    PutRight hp b reports body id where
  error _ _ report hreport := by rw [h]; exact hreport
  success hno := absurd (by rw [h]) (hno m)
  others _ _ _ hreport := by rw [h]; exact hreport

theorem putRight_adds_iff {reports : Reports μ ρ} {body : Option (ReportUserArgs J)} {id : String}
    {args : AddReportArgs μ} {user : ReportUserArgs J} {uriToDbus : UriToDbus}
    (h : Prepared hp b body args user uriToDbus) (hdelete : b.deleteError = none)
    (hadds : Adds hp b (deleted reports id) args uriToDbus) :
    PutRight hp b reports body id ↔ b.assignId (deleted reports id) args = id := by
  obtain ⟨type, hput⟩ := handleReportPut_of_prepared reports id h hdelete
  obtain ⟨readingParams, hparams, hreports, hreply⟩ := performAddReport_of_adds hadds user type
  rw [← hput] at hreports hreply
  constructor
  · intro hright
    by_contra hne
    obtain ⟨_, _, _, _, _, _, hreport⟩ := hright.success hreply
    rw [hreports, Function.update_of_ne (Ne.symm hne), deleted_self] at hreport
    cases hreport
  · intro hid
    refine ⟨fun m hm => absurd hm (hreply m), fun _ => ?_, fun other report hne hreport => ?_⟩
    · exact ⟨args, user, uriToDbus, readingParams, h, hparams, by rw [hreports, hid]; simp⟩
    · rw [hreports, hid, Function.update_of_ne hne, deleted_of_ne hne, hreport]

theorem putRight_not_adds_iff {reports : Reports μ ρ} {body : Option (ReportUserArgs J)}
    {id : String} {args : AddReportArgs μ} {user : ReportUserArgs J} {uriToDbus : UriToDbus}
    (h : Prepared hp b body args user uriToDbus) (hdelete : b.deleteError = none)
    (hadds : ¬ Adds hp b (deleted reports id) args uriToDbus) :
    PutRight hp b reports body id ↔ reports id = none := by
  obtain ⟨type, hput⟩ := handleReportPut_of_prepared reports id h hdelete
  obtain ⟨m, hadd⟩ := performAddReport_of_not_adds hadds user type
  rw [hadd] at hput
  constructor
  · intro hright
    cases hreport : reports id with
    | none => rfl
    | some report =>
      have hstill := hright.error m (by rw [hput]) report hreport
      rw [hput] at hstill
      cases (deleted_self reports id).symm.trans hstill
  · intro hnone
    have hsame : deleted reports id = reports := by
      rw [deleted, ← hnone, Function.update_eq_self]
    exact putRight_of_error (hput.trans (by rw [hsame]))

/-- A PUT does what it should exactly if no report is lost to a failure after its deletion, and the
body names the report of the URL. -/
theorem handleReportPut_right_iff (hp : Helpers J μ ρ) (b : Backend μ ρ) (reports : Reports μ ρ)
    (body : Option (ReportUserArgs J)) (id : String) :
    PutRight hp b reports body id ↔ PutClear hp b reports body id := by
  by_cases hsilent : hp.getUserParameters body = .error .silent
  · refine iff_of_false (fun hright => ?_) fun hclear => hclear.1 hsilent
    have hput : handleReportPut hp b reports body id = (reports, .untouched) := by
      rw [handleReportPut, hsilent]
    obtain ⟨args, user, _, _, ⟨hargs, _⟩, _⟩ := hright.success fun m => by rw [hput]; nofun
    rw [hsilent] at hargs
    cases hargs
  · by_cases hprepared : ∃ args user uriToDbus, Prepared hp b body args user uriToDbus ∧
        b.deleteError = none
    · obtain ⟨args, user, uriToDbus, h, hdelete⟩ := hprepared
      constructor
      · intro hright
        exact ⟨hsilent, fun _ _ _ h hdelete => ⟨fun hadds =>
          (putRight_adds_iff h hdelete hadds).mp hright, fun hadds =>
          (putRight_not_adds_iff h hdelete hadds).mp hright⟩⟩
      · rintro ⟨-, hclear⟩
        obtain ⟨hid, hnone⟩ := hclear args user uriToDbus h hdelete
        by_cases hadds : Adds hp b (deleted reports id) args uriToDbus
        · exact (putRight_adds_iff h hdelete hadds).mpr (hid hadds)
        · exact (putRight_not_adds_iff h hdelete hadds).mpr (hnone hadds)
    · push Not at hprepared
      obtain ⟨m, hput⟩ := handleReportPut_of_not_prepared reports id hprepared hsilent
      refine iff_of_true (putRight_of_error hput) ⟨hsilent, fun args user uriToDbus h hdelete => ?_⟩
      exact absurd hdelete (hprepared args user uriToDbus h)

/-- The helpers for a body with nothing but an id. -/
def plainHelpers : Helpers Unit Unit Unit where
  defaults := ⟨"", "Report", "OnRequest", "Overwrite", 0, [], 0, [], true⟩
  toDbusReportingType := id
  toDbusReportUpdates := id
  toDbusReportActions := some
  readRecurrenceInterval _ := some none
  fromDurationString _ := none
  getUserMetrics := some
  getChassisSensorNode _ := some []
  readingParams _ _ := some ()
  dumpActions _ := ""
  dumpMetrics _ := ""

/-- A service that has no room for another report. -/
def fullBackend : Backend Unit Unit where
  deleteError := none
  deleteError_ne := nofun
  retrieveUriToDbusMap _ := none
  arrival := id
  arrival_perm := List.Perm.refl
  addError := some ⟨.too_many_files_open, ""⟩
  assignId _ args := args.id
  assignId_eq _ _ _ := rfl

/-- A PUT of an existing report, where `AddReport` fails. -/
theorem not_handleReportPut_right :
    ¬ ∀ (J μ ρ : Type) (hp : Helpers J μ ρ) (b : Backend μ ρ) (reports : Reports μ ρ)
      (body : Option (ReportUserArgs J)) (id : String), PutRight hp b reports body id := by
  intro h
  let report : Report Unit Unit := ⟨plainHelpers.defaults, ()⟩
  let reports : Reports Unit Unit := fun other => if other = "r" then some report else none
  have hright := h Unit Unit Unit plainHelpers fullBackend reports
    (some ⟨some "r", none, none, none, none, none, none, none, none, none⟩) "r"
  cases hright.error .createLimitReachedForResource rfl report rfl

end MetaCommon.Telemetry
