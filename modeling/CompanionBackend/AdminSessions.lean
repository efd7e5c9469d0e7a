import CompanionBackend.TaskSystems
import CompanionBackend.ProviderEvents
import CompanionBackend.AgentMessages

/-!
# Sessions of administrators

A token names its account and the version the account had at the login. Handlers that end the
sessions of an account raise the version: the login does so on the row it has locked, the others
on the row as their request had read it, which is what the snapshot of the transaction shows. An
account is named by its id also at the login; remarks, logs and dates are left out. The check
of a password against a hash is a parameter.
-/
namespace CompanionBackend.AdminSessions

open TaskSystems ProviderEvents
open AgentMessages (hour)
open GrowthCounters (Instant)

inductive Role
  | superAdmin | opsAdmin | aiTrainer | techOps | observer
  deriving DecidableEq, Repr

/-- A row of `admin_users`. -/
structure AdminUser where
  passwordHash : Text
  role : Role
  isActive : Bool
  isLocked : Bool
  loginFailCount : ℕ
  tokenVersion : ℕ
  deriving DecidableEq

/-- A signed token. -/
structure AdminToken where
  adminId : ℕ
  role : Role
  version : ℕ
  exp : Instant
  /-- How many revocations of the account had been committed, and the hash the password was checked
  against. The token does not say so. -/
  stamp : ℕ
  hash : Text
  deriving DecidableEq

structure AdminData where
  accounts : ℕ → Option AdminUser
  locked : ℕ → Bool
  /-- The tokens that were signed: others do not verify. -/
  issued : List AdminToken
  /-- Commits that ended the sessions of an account. The code keeps no such count. -/
  revocations : ℕ → ℕ

/-- Requests that need a token. -/
inductive AdminRequest
  | logout
  | changePassword (old new confirm : Text)
  | updateAccount (id : ℕ) (role : Option Role)
  | deleteAccount (id : ℕ)
  | resetPassword (id : ℕ)
  | unlockAccount (id : ℕ)
  deriving DecidableEq

namespace AdminRequest

/-- The account in the path of the request. -/
def target : AdminRequest → Option ℕ
  | .logout | .changePassword _ _ _ => none
  | .updateAccount id _ | .deleteAccount id | .resetPassword id | .unlockAccount id => some id

/-- Observers may only end their session and change their password, and accounts are for super
administrators. -/
def permitted (role : Role) (req : AdminRequest) : Bool := req.target.isNone || role = .superAdmin

end AdminRequest

/-- The attributes that a handler has changed, which are all that is written. -/
structure Change where
  passwordHash : Option Text
  role : Option Role
  isLocked : Option Bool
  loginFailCount : Option ℕ
  tokenVersion : Option ℕ
  deriving DecidableEq

namespace Change

def nothing : Change := ⟨none, none, none, none, none⟩

def apply (c : Change) (r : AdminUser) : AdminUser :=
  { r with
    passwordHash := c.passwordHash.getD r.passwordHash
    role := c.role.getD r.role
    isLocked := c.isLocked.getD r.isLocked
    loginFailCount := c.loginFailCount.getD r.loginFailCount
    tokenVersion := c.tokenVersion.getD r.tokenVersion }

end Change

inductive Write
  | update (c : Change)
  | delete
  deriving DecidableEq

/-- A request between two of its awaits. -/
inductive AdminTask
  | login (id : ℕ) (password : Text)
  /-- The row has been read for update. -/
  | loginLocked (id : ℕ) (row : AdminUser) (password : Text)
  | authenticating (token : AdminToken) (req : AdminRequest)
  /-- The token has been accepted; `target` is read in the same snapshot. -/
  | handling (id : ℕ) (me : AdminUser) (target : Option AdminUser) (req : AdminRequest)
  | committing (id : ℕ) (w : Write)
  deriving DecidableEq

/-- The account whose row the transaction has locked. -/
def AdminTask.holdsRow : AdminTask → Option ℕ
  | .loginLocked id _ _ => some id
  | _ => none

inductive AdminAnswer
  | done
  /-- `bcrypt.hashpw` of a new password. -/
  | hashed (h : Text)
  deriving DecidableEq

inductive AdminInput
  | login (id : ℕ) (password : Text)
  | request (token : AdminToken) (req : AdminRequest)
  | proceed (now : Instant) (a : AdminAnswer)
  /-- The request raises; its transaction is rolled back. -/
  | abort

/-- `get_current_admin`, with the row that its query finds. -/
def acceptsRow (token : AdminToken) (now : Instant) (row : AdminUser) : Bool :=
  now < token.exp ∧ row.isActive ∧ !row.isLocked ∧ token.version = row.tokenVersion

/-- The password policy of administrators. -/
def validPassword (p : Text) : Bool :=
  12 ≤ p.length && p.any Char.isUpper && p.any Char.isLower && p.any Char.isDigit &&
    p.any fun c => !c.isAlphanum

namespace AdminData

/-- The token verifies, and the row of its account is as it says. -/
def accepts (d : AdminData) (token : AdminToken) (now : Instant) : Bool :=
  decide (token ∈ d.issued) && (d.accounts token.adminId).any (acceptsRow token now)

def setAccount (d : AdminData) (id : ℕ) (row : Option AdminUser) : AdminData :=
  { d with accounts := Function.update d.accounts id row }

def setLock (d : AdminData) (id : ℕ) (b : Bool) : AdminData :=
  { d with locked := Function.update d.locked id b }

/-- A commit that ends the sessions of an account. -/
def revoke (d : AdminData) (id : ℕ) : AdminData :=
  { d with revocations := Function.update d.revocations id (d.revocations id + 1) }

/-- The token of a login. -/
def sign (d : AdminData) (id : ℕ) (row : AdminUser) (now : Instant) : AdminToken :=
  ⟨id, row.role, row.tokenVersion, now + 2 * hour, d.revocations id, row.passwordHash⟩

/-- `admin_login` on the row that it has locked, up to its commit. -/
def loginCommit (verify : Text → Text → Bool) (d : AdminData) (id : ℕ) (row : AdminUser)
    (password : Text) (now : Instant) : AdminData :=
  let d := d.setLock id false
  if !row.isActive || row.isLocked then d
  else if verify password row.passwordHash then
    { d.setAccount id (some { row with loginFailCount := 0 }) with
      issued := d.issued ++ [d.sign id row now] }
  else if 5 ≤ row.loginFailCount + 1 then
    (d.setAccount id (some
      { row with isLocked := true, loginFailCount := 5, tokenVersion := row.tokenVersion + 1 })).revoke id
  else d.setAccount id (some { row with loginFailCount := row.loginFailCount + 1 })

/-- The commit of a handler. A row that is gone is not brought back. -/
def commit (d : AdminData) (id : ℕ) (w : Write) : AdminData :=
  match d.accounts id, w with
  | some row, .update c =>
    let d := d.setAccount id (some (c.apply row))
    if c.tokenVersion.isSome then d.revoke id else d
  | some _, .delete => (d.setAccount id none).revoke id
  | none, _ => d

end AdminData

/-- The handlers: what is to be written, or nothing. -/
def handle (verify : Text → Text → Bool) (id : ℕ) (me : AdminUser) (target : Option AdminUser) :
    AdminRequest → AdminAnswer → Option (Option (ℕ × Write))
  | .logout, .done =>
    some (some (id, .update { Change.nothing with tokenVersion := some (me.tokenVersion + 1) }))
  | .changePassword old new confirm, .hashed h =>
    if verify new h then
      some (if verify old me.passwordHash ∧ old ≠ new ∧ new = confirm ∧ validPassword new then
        some (id, .update { Change.nothing with
          passwordHash := some h, tokenVersion := some (me.tokenVersion + 1) })
        else none)
    else none
  | .updateAccount targetId role, .done =>
    some (target.bind fun row =>
      if targetId = id ∧ (role.any fun r => decide (r ≠ me.role)) then none
      else (role.filter fun r => decide (r ≠ row.role)).map fun r => (targetId, .update
        { Change.nothing with role := some r, tokenVersion := some (row.tokenVersion + 1) }))
  | .deleteAccount targetId, .done =>
    some (target.bind fun row =>
      if targetId = id ∨ row.role = .superAdmin then none else some (targetId, .delete))
  | .resetPassword targetId, .hashed h =>
    some (target.map fun row => (targetId, .update { Change.nothing with
      passwordHash := some h, tokenVersion := some (row.tokenVersion + 1) }))
  | .unlockAccount targetId, .done =>
    some (target.bind fun row =>
      if row.isLocked then
        some (targetId, .update { Change.nothing with
          isLocked := some false
          loginFailCount := if row.loginFailCount = 0 then none else some 0 })
      else none)
  | _, _ => none

namespace AdminData

/-- What a request does up to its next await. A read for update and a write wait for the row. -/
def proceed (verify : Text → Text → Bool) (d : AdminData) (now : Instant) :
    AdminTask → AdminAnswer → Option (AdminData × List AdminTask)
  | .login id password, .done =>
    if d.locked id then none
    else
      match d.accounts id with
      | some row => some (d.setLock id true, [.loginLocked id row password])
      | none => some (d, [])
  | .loginLocked id row password, .done => some (d.loginCommit verify id row password now, [])
  | .authenticating token req, .done =>
    match d.accounts token.adminId with
    | some me =>
      some (d, if d.accepts token now && req.permitted me.role then
        [.handling token.adminId me (req.target.bind d.accounts) req] else [])
    | none => some (d, [])
  | .handling id me target req, a =>
    (handle verify id me target req a).map fun w =>
      (d, (w.map fun w => AdminTask.committing w.1 w.2).toList)
  | .committing id w, .done => if d.locked id then none else some (d.commit id w, [])
  | _, _ => none

/-- The transaction of the task is over. -/
def release (d : AdminData) (t : AdminTask) : AdminData :=
  match t.holdsRow with
  | some id => d.setLock id false
  | none => d

end AdminData

/-- Requests of administrators on any accounts. -/
def adminSystem (verify : Text → Text → Bool) : TaskSystem AdminData AdminTask AdminInput where
  initial d := (∀ id, d.locked id = false) ∧ d.issued = []
  accept _ i :=
    match i with
    | .login id password => some [.login id password]
    | .request token req => some [.authenticating token req]
    | _ => none
  advance d t i :=
    match i with
    | .proceed now a => d.proceed verify now t a
    | .abort => some (d.release t, [])
    | _ => none

end CompanionBackend.AdminSessions
