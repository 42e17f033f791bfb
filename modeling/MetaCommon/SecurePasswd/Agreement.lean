import MetaCommon.Lib.Runs
import MetaCommon.SecurePasswd.Stores

/-!
# When the two stores agree

A set asks the trusted application first and PAM in any case, and takes nothing back. So the stores
keep the password of the last successful set exactly as long as each set succeeds, or fails, in both
of them.
-/

namespace MetaCommon.SecurePasswd

open CString Runs

def Stores.usesTee (s : Stores) : Bool := s.hasOptee && s.teeLoaded

def Tee.takes (tee : Tee) : Bool := tee.prepareTeeSession && tee.invokeCommand

/-! ### The two updates of a set -/

namespace Stores

variable (s : Stores) (tee : Tee) (retval : ℕ) (userName : UserName) (password : SecureString)

/-- The update in the enclave succeeds where there is none to do. -/
theorem secUpdatePasswd_eq : s.secUpdatePasswd tee userName password =
    if s.usesTee then
      if tee.takes then (true, { s with ta := Function.update s.ta userName (some password) })
      else (false, s)
    else (true, s) := by
  unfold secUpdatePasswd usesTee Tee.takes
  cases s.hasOptee <;> cases s.teeLoaded <;> cases tee.prepareTeeSession <;>
    cases tee.invokeCommand <;> rfl

theorem secUpdatePasswd_fst :
    (s.secUpdatePasswd tee userName password).1 = (!s.usesTee || tee.takes) := by
  rw [secUpdatePasswd_eq]
  cases s.usesTee <;> cases tee.takes <;> rfl

theorem secUpdatePasswd_pam : (s.secUpdatePasswd tee userName password).2.pam = s.pam := by
  rw [secUpdatePasswd_eq]
  split_ifs <;> rfl

theorem secUpdatePasswd_usesTee :
    (s.secUpdatePasswd tee userName password).2.usesTee = s.usesTee := by
  rw [secUpdatePasswd_eq]
  split_ifs <;> rfl

theorem secUpdatePasswd_ta : (s.secUpdatePasswd tee userName password).2.ta =
    if s.usesTee ∧ tee.takes then Function.update s.ta userName (some password) else s.ta := by
  rw [secUpdatePasswd_eq, ite_and]
  split_ifs <;> rfl

theorem pamUpdatePasswd_ta : (s.pamUpdatePasswd retval userName password).ta = s.ta := by
  unfold pamUpdatePasswd
  split_ifs <;> rfl

theorem pamUpdatePasswd_usesTee :
    (s.pamUpdatePasswd retval userName password).usesTee = s.usesTee := by
  unfold pamUpdatePasswd
  split_ifs <;> rfl

theorem pamUpdatePasswd_pam : (s.pamUpdatePasswd retval userName password).pam =
    if retval = pamSuccess then Function.update s.pam userName (some (upToNul password))
    else s.pam := by
  unfold pamUpdatePasswd
  split_ifs <;> rfl

def updateBoth : Stores :=
  (s.secUpdatePasswd tee userName password).2.pamUpdatePasswd retval userName password

theorem updateBoth_usesTee :
    (s.updateBoth tee retval userName password).usesTee = s.usesTee := by
  rw [updateBoth, pamUpdatePasswd_usesTee, secUpdatePasswd_usesTee]

theorem updateBoth_pam : (s.updateBoth tee retval userName password).pam =
    if retval = pamSuccess then Function.update s.pam userName (some (upToNul password))
    else s.pam := by
  rw [updateBoth, pamUpdatePasswd_pam, secUpdatePasswd_pam]

theorem updateBoth_ta : (s.updateBoth tee retval userName password).ta =
    if s.usesTee ∧ tee.takes then Function.update s.ta userName (some password) else s.ta := by
  rw [updateBoth, pamUpdatePasswd_ta, secUpdatePasswd_ta]

/-- The answer and the stores of a set that makes both updates. -/
structure Sets (r : Cc × Stores) : Prop where
  stores : r.2 = s.updateBoth tee retval userName password
  success : r.1 = .success ↔ retval = pamSuccess ∧ (s.usesTee → tee.takes)

theorem setSpecialUserPassword_sets : s.Sets tee retval userName password
    (s.setSpecialUserPassword tee retval userName password) := by
  have hsec := s.secUpdatePasswd_fst tee userName password
  unfold setSpecialUserPassword
  dsimp only
  rw [hsec]
  constructor
  · split_ifs <;> rfl
  · cases s.usesTee <;> cases tee.takes <;> by_cases h : retval = pamSuccess <;> simp [h]

theorem setUserPassword_sets : s.Sets tee retval userName (assignPasswd password)
    (s.setUserPassword tee retval userName password) := by
  have hsec := s.secUpdatePasswd_fst tee userName (assignPasswd password)
  unfold setUserPassword
  dsimp only
  rw [hsec]
  constructor
  · split_ifs <;> rfl
  · cases s.usesTee <;> cases tee.takes <;> by_cases h : retval = pamSuccess <;> simp [h]

theorem secTestPasswd_eq : s.secTestPasswd tee userName password =
    (!s.usesTee || (tee.takes && s.ta userName == some password)) := by
  unfold secTestPasswd usesTee Tee.takes
  cases s.hasOptee <;> cases s.teeLoaded <;> cases tee.prepareTeeSession <;> rfl

theorem testPasswd_success_iff (pamReads : Bool) :
    s.testPasswd pamReads tee userName password = .success ↔
      pamReads ∧ s.pam userName = some password ∧
        (s.usesTee → tee.takes ∧ s.ta userName = some password) := by
  unfold testPasswd
  rw [secTestPasswd_eq]
  cases pamReads with
  | false => simp
  | true =>
    by_cases hp : s.pam userName = some password
    · cases s.usesTee <;> simp [hp]
    · simp [hp]

end Stores

/-! ### Agreement -/

/-- PAM has for each user the password of the last successful set, and so has the trusted
application, if there is one. -/
structure Machine.Agreed (m : Machine) : Prop where
  pam : m.stores.pam = m.last
  ta : m.stores.usesTee → m.stores.ta = m.last

theorem Machine.agreed_init (hasOptee teepriv0 : Bool) (passwords : UserName → Option SecureString) :
    (Machine.init hasOptee teepriv0 passwords).Agreed := ⟨rfl, fun _ => rfl⟩

/-- What is asked of a set: the stores agree afterwards, and if it reports a failure they are as
they were. -/
structure SetSound (m : Machine) (userName : UserName) (password : SecureString)
    (r : Cc × Stores) : Prop where
  agreed : (m.record userName password r).Agreed
  failed : r.1 ≠ .success → r.2.ta = m.stores.ta ∧ r.2.pam = m.stores.pam

/-- What is asked of each operation: a test succeeds exactly for the password of the last successful
set. -/
def EventSound (m : Machine) : Event → Prop
  | .setSpecialUserPassword tee retval userName userPassword =>
    SetSound m userName userPassword
      (m.stores.setSpecialUserPassword tee retval userName userPassword)
  | .setUserPassword tee retval userName userPassword =>
    SetSound m userName (Stores.assignPasswd userPassword)
      (m.stores.setUserPassword tee retval userName userPassword)
  | .testPasswd pamReads tee userName testPassword =>
    m.stores.testPasswd pamReads tee userName testPassword = .success ↔
      m.last userName = some testPassword

/-- Where both updates succeed the password is a C string; where only one does, it is the one that
its store has already. -/
structure UpdatesTogether (s : Stores) (tee : Tee) (retval : ℕ) (userName : UserName)
    (password : SecureString) : Prop where
  both : retval = pamSuccess → (s.usesTee → tee.takes) → 0 ∉ password
  onlyTa : retval ≠ pamSuccess → s.usesTee → tee.takes → s.ta userName = some password
  onlyPam : retval = pamSuccess → s.usesTee → ¬ tee.takes →
    s.pam userName = some (upToNul password)

/-- The condition on an operation: a set updates both stores or none, and the checks of a test with
the right password do not fail. -/
def EventCondition (m : Machine) : Event → Prop
  | .setSpecialUserPassword tee retval userName userPassword =>
    UpdatesTogether m.stores tee retval userName userPassword
  | .setUserPassword tee retval userName userPassword =>
    UpdatesTogether m.stores tee retval userName (Stores.assignPasswd userPassword)
  | .testPasswd pamReads tee userName testPassword =>
    m.stores.pam userName = some testPassword → pamReads ∧ (m.stores.usesTee → tee.takes)

variable {m : Machine} {tee : Tee} {retval : ℕ} {userName : UserName} {password : SecureString}
  {r : Cc × Stores}

theorem setSound_of_success (hm : m.Agreed)
    (hr : m.stores.Sets tee retval userName password r) (hsuccess : r.1 = .success) :
    SetSound m userName password r ↔ 0 ∉ password := by
  obtain ⟨hretval, htakes⟩ := hr.success.mp hsuccess
  have hpam : r.2.pam = Function.update m.last userName (some (upToNul password)) := by
    rw [hr.stores, Stores.updateBoth_pam, if_pos hretval, hm.pam]
  have hlast : (m.record userName password r).last =
      Function.update m.last userName (some password) := if_pos hsuccess
  constructor
  · intro h
    have hsame := congrFun (hpam.symm.trans (h.agreed.pam.trans hlast)) userName
    rw [Function.update_self, Function.update_self] at hsame
    exact (upToNul_eq_self_iff password).mp (Option.some.inj hsame)
  · intro h0
    refine ⟨⟨?_, fun htee => ?_⟩, fun hfailed => absurd hsuccess hfailed⟩
    · rw [hlast]
      change r.2.pam = _
      rw [hpam, (upToNul_eq_self_iff password).mpr h0]
    · change r.2.usesTee = true at htee
      rw [hr.stores, Stores.updateBoth_usesTee] at htee
      rw [hlast]
      change r.2.ta = _
      rw [hr.stores, Stores.updateBoth_ta, if_pos ⟨htee, htakes htee⟩, hm.ta htee]

theorem setSound_of_failure (hm : m.Agreed)
    (hr : m.stores.Sets tee retval userName password r) (hfailure : r.1 ≠ .success) :
    SetSound m userName password r ↔ r.2.ta = m.stores.ta ∧ r.2.pam = m.stores.pam := by
  have hlast : (m.record userName password r).last = m.last := if_neg hfailure
  constructor
  · intro h
    exact h.failed hfailure
  · rintro ⟨hta, hpam⟩
    refine ⟨⟨?_, fun htee => ?_⟩, fun _ => ⟨hta, hpam⟩⟩
    · rw [hlast]
      exact hpam.trans hm.pam
    · change r.2.usesTee = true at htee
      rw [hr.stores, Stores.updateBoth_usesTee] at htee
      rw [hlast]
      exact hta.trans (hm.ta htee)

theorem setSound_iff (hm : m.Agreed) (hr : m.stores.Sets tee retval userName password r) :
    SetSound m userName password r ↔
      UpdatesTogether m.stores tee retval userName password := by
  by_cases hsuccess : r.1 = .success
  · rw [setSound_of_success hm hr hsuccess]
    obtain ⟨hretval, htakes⟩ := hr.success.mp hsuccess
    constructor
    · intro h0
      exact ⟨fun _ _ => h0, fun hne => absurd hretval hne,
        fun _ htee hnot => absurd (htakes htee) hnot⟩
    · intro h
      exact h.both hretval htakes
  · rw [setSound_of_failure hm hr hsuccess, hr.stores, Stores.updateBoth_ta, Stores.updateBoth_pam]
    have hfails := mt hr.success.mpr hsuccess
    by_cases hretval : retval = pamSuccess
    · have hnot : ¬ (m.stores.usesTee → tee.takes) := fun h => hfails ⟨hretval, h⟩
      obtain ⟨htee, htakes⟩ := Classical.not_imp.mp hnot
      rw [if_neg fun h => htakes h.2, if_pos hretval, Function.update_eq_self_iff]
      constructor
      · rintro ⟨-, hpam⟩
        exact ⟨fun _ h => absurd (h htee) htakes, fun hne => absurd hretval hne,
          fun _ _ _ => hpam.symm⟩
      · intro h
        exact ⟨rfl, (h.onlyPam hretval htee htakes).symm⟩
    · rw [if_neg hretval]
      constructor
      · rintro ⟨hta, -⟩
        refine ⟨fun h => absurd h hretval, fun _ htee htakes => ?_, fun h => absurd h hretval⟩
        rw [if_pos ⟨htee, htakes⟩, Function.update_eq_self_iff] at hta
        exact hta.symm
      · intro h
        refine ⟨?_, rfl⟩
        split_ifs with hupdate
        · exact Function.update_eq_self_iff.mpr (h.onlyTa hretval hupdate.1 hupdate.2).symm
        · rfl

theorem testSound_iff (hm : m.Agreed) (pamReads : Bool) (tee : Tee) (userName : UserName)
    (testPassword : SecureString) :
    EventSound m (.testPasswd pamReads tee userName testPassword) ↔
      EventCondition m (.testPasswd pamReads tee userName testPassword) := by
  have hlast : m.last userName = m.stores.pam userName := (congrFun hm.pam userName).symm
  have hta : m.stores.usesTee → m.stores.ta userName = m.stores.pam userName := fun htee => by
    rw [hm.ta htee, hlast]
  unfold EventSound EventCondition
  dsimp only
  rw [Stores.testPasswd_success_iff, hlast]
  constructor
  · intro h hpam
    obtain ⟨hreads, -, htee⟩ := h.mpr hpam
    exact ⟨hreads, fun h => (htee h).1⟩
  · intro h
    refine ⟨fun hall => hall.2.1, fun hpam => ?_⟩
    obtain ⟨hreads, htakes⟩ := h hpam
    exact ⟨hreads, hpam, fun htee => ⟨htakes htee, (hta htee).trans hpam⟩⟩

theorem eventSound_iff (hm : m.Agreed) (e : Event) : EventSound m e ↔ EventCondition m e := by
  cases e with
  | setSpecialUserPassword tee retval userName userPassword =>
    exact setSound_iff hm (m.stores.setSpecialUserPassword_sets tee retval userName userPassword)
  | setUserPassword tee retval userName userPassword =>
    exact setSound_iff hm (m.stores.setUserPassword_sets tee retval userName userPassword)
  | testPasswd pamReads tee userName testPassword =>
    exact testSound_iff hm pamReads tee userName testPassword

theorem Machine.Agreed.step (hm : m.Agreed) {e : Event} (h : EventCondition m e) :
    (m.step e).Agreed := by
  have hsound := (eventSound_iff hm e).mpr h
  cases e with
  | setSpecialUserPassword tee retval userName userPassword => exact hsound.agreed
  | setUserPassword tee retval userName userPassword => exact hsound.agreed
  | testPasswd pamReads tee userName testPassword => exact hm

/-- The operations of a run all do what they should exactly if each set updates both stores or none
and no check of a right password fails. -/
theorem run_eventSound_iff (hasOptee teepriv0 : Bool) (passwords : UserName → Option SecureString)
    (es : List Event) :
    Guarded Machine.step EventSound (Machine.init hasOptee teepriv0 passwords) es ↔
      Guarded Machine.step EventCondition (Machine.init hasOptee teepriv0 passwords) es :=
  guarded_congr (fun _ _ hm h => hm.step h) (fun _ e hm => eventSound_iff hm e)
    (Machine.agreed_init hasOptee teepriv0 passwords)

/-- The trusted application fails to install the password "new" and PAM takes it: the set reports a
failure, and PAM has another password than before. -/
theorem not_run_eventSound : ¬ Guarded Machine.step EventSound
    (Machine.init true true fun _ => some [111, 108, 100])
    [.setUserPassword ⟨true, true, false⟩ pamSuccess "admin" [110, 101, 119]] := by
  rintro ⟨h, -⟩
  have hpam := congrFun (h.failed (by decide +kernel)).2 "admin"
  exact absurd hpam (by decide +kernel)

end MetaCommon.SecurePasswd
