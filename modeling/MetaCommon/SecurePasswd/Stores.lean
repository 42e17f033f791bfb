import Mathlib.Logic.Function.Basic
import MetaCommon.Lib.CString

/-!
# User passwords in the secure enclave and in PAM

With the secure enclave a user's password is stored twice: by the trusted application, which is told
the length of the string, and by PAM, which gets a C string. The enclave and PAM may fail at each
call; a call that fails changes nothing in the store it is made to.
-/

namespace MetaCommon.SecurePasswd

open CString

abbrev UserName := String

abbrev SecureString := List UInt8

def maxIpmi20PasswordSize : ℕ := 20

/-- The completion codes: for the values of `pamUpdatePasswd` other than `PAM_SUCCESS` only that
they are not the ones of this patch matters. -/
inductive Cc
  | success
  | unspecifiedError
  | pamError (retval : ℕ)
  | passwdFailMismatch
deriving DecidableEq

def pamSuccess : ℕ := 0

/-- How the enclave answers one call: whether the context, the session and the command succeed. -/
structure Tee where
  initializeContext : Bool
  openSession : Bool
  invokeCommand : Bool
deriving DecidableEq

/-- The build flag `HAS_OPTEE`, `teeLoaded` and the two stores. -/
structure Stores where
  hasOptee : Bool
  teeLoaded : Bool
  ta : UserName → Option SecureString
  pam : UserName → Option SecureString

def Tee.prepareTeeSession (tee : Tee) : Bool := tee.initializeContext && tee.openSession

namespace Stores

variable (s : Stores)

/-- `teepriv0` is whether "/dev/teepriv0" exists. -/
def secPasswdMgrInit (teepriv0 : Bool) : Stores := { s with teeLoaded := teepriv0 }

def secUpdatePasswd (tee : Tee) (username : UserName) (password : SecureString) : Bool × Stores :=
  if s.hasOptee then
    if !s.teeLoaded then (true, s)
    else if !tee.prepareTeeSession then (false, s)
    else if tee.invokeCommand then
      (true, { s with ta := Function.update s.ta username (some password) })
    else (false, s)
  else (true, s)

def secTestPasswd (tee : Tee) (username : UserName) (password : SecureString) : Bool :=
  if s.hasOptee then
    if !s.teeLoaded then true
    else if !tee.prepareTeeSession then false
    else tee.invokeCommand && s.ta username == some password
  else true

/-- `pamUpdatePasswd`, which returns `retval`. -/
def pamUpdatePasswd (retval : ℕ) (username : UserName) (password : SecureString) : Stores :=
  if retval = pamSuccess then
    { s with pam := Function.update s.pam username (some (upToNul password)) }
  else s

def setSpecialUserPassword (tee : Tee) (retval : ℕ) (userName : UserName)
    (userPassword : SecureString) : Cc × Stores :=
  let r := s.secUpdatePasswd tee userName userPassword
  let s := r.2.pamUpdatePasswd retval userName userPassword
  if retval ≠ pamSuccess ∨ !r.1 then (.unspecifiedError, s) else (.success, s)

/-- The string that `setUserPassword` makes of its argument. -/
def assignPasswd (userPassword : SecureString) : SecureString :=
  (upToNul userPassword).take maxIpmi20PasswordSize

/-- `setUserPassword` for a user whose name has been found. -/
def setUserPassword (tee : Tee) (retval : ℕ) (userName : UserName) (userPassword : SecureString) :
    Cc × Stores :=
  let passwd := assignPasswd userPassword
  let r := s.secUpdatePasswd tee userName passwd
  let s := r.2.pamUpdatePasswd retval userName passwd
  if retval = pamSuccess then
    if !r.1 then (.unspecifiedError, s) else (.success, s)
  else (.pamError retval, s)

/-- The test operation of the command: first the password that PAM has stored is compared, if it can
be read, then the trusted application is asked. -/
def testPasswd (pamReads : Bool) (tee : Tee) (userName : UserName) (testPassword : SecureString) :
    Cc :=
  if !(pamReads && s.pam userName == some testPassword) then .passwdFailMismatch
  else if !s.secTestPasswd tee userName testPassword then .passwdFailMismatch
  else .success

end Stores

inductive Event
  | setSpecialUserPassword (tee : Tee) (retval : ℕ) (userName : UserName)
      (userPassword : SecureString)
  | setUserPassword (tee : Tee) (retval : ℕ) (userName : UserName) (userPassword : SecureString)
  | testPasswd (pamReads : Bool) (tee : Tee) (userName : UserName) (testPassword : SecureString)
deriving DecidableEq

/-- The stores, and for each user the password of the last set that has reported success. -/
structure Machine where
  stores : Stores
  last : UserName → Option SecureString

namespace Machine

/-- Both stores have the same passwords when the daemon starts. -/
def init (hasOptee teepriv0 : Bool) (passwords : UserName → Option SecureString) : Machine :=
  ⟨(Stores.mk hasOptee false passwords passwords).secPasswdMgrInit teepriv0, passwords⟩

def record (m : Machine) (userName : UserName) (password : SecureString) (r : Cc × Stores) :
    Machine where
  stores := r.2
  last := if r.1 = .success then Function.update m.last userName (some password) else m.last

def step (m : Machine) : Event → Machine
  | .setSpecialUserPassword tee retval userName userPassword =>
    m.record userName userPassword
      (m.stores.setSpecialUserPassword tee retval userName userPassword)
  | .setUserPassword tee retval userName userPassword =>
    m.record userName (Stores.assignPasswd userPassword)
      (m.stores.setUserPassword tee retval userName userPassword)
  | .testPasswd _ _ _ _ => m

end Machine

end MetaCommon.SecurePasswd
