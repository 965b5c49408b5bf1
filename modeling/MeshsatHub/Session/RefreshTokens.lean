import MeshsatHub.Foundations.Interleaving

/-!
# Refresh tokens

`LoginHandler.Refresh` and `LoginHandler.Logout` as sequences of store operations. The results of
the deletes and of the refresh's store are ignored, as in the source. A token's value stands for its
hash, and a generated one is new. A token is accepted when the refresh makes its last operation.
-/

namespace MeshsatHub.Session
open Interleaving

structure Owner where
  tenantID : String
  userID : String
  deriving DecidableEq

structure RefreshToken where
  token : String
  owner : Owner
  expiresAt : Int
  deriving DecidableEq

/-- What was answered: a login with its token, a refresh with the token presented
and the token issued for it, a logout that was presented a valid token. -/
inductive Entry where
  | opened (owner : Owner) (token : String)
  | exchanged (owner : Owner) (old new : String)
  | loggedOut (owner : Owner)
  deriving DecidableEq

def Entry.issued : Entry → Option String
  | .opened _ token => some token
  | .exchanged _ _ new => some new
  | .loggedOut _ => none

/-- The token an answer has accepted. -/
def Entry.spent : Entry → Option String
  | .exchanged _ old _ => some old
  | _ => none

variable (log : List Entry)

/-- The tokens issued so far. -/
def issuedBy : List String := log.filterMap Entry.issued

/-- The tokens exchanged so far. -/
def spentBy : List String := log.filterMap Entry.spent

structure Store where
  rows : List RefreshToken
  log : List Entry

variable (rows : List RefreshToken) (token : String)

def getRefreshToken : Option RefreshToken :=
  rows.find? fun r => r.token == token

/-- Adds a row, if the statement goes through. -/
def storeRefreshToken (row : RefreshToken) (ok : Bool) : List RefreshToken :=
  if ok then row :: rows else rows

def deleteRefreshToken (ok : Bool) : List RefreshToken :=
  if ok then rows.filter fun r => r.token != token else rows

def deleteRefreshTokensByUser (owner : Owner) (ok : Bool) : List RefreshToken :=
  if ok then rows.filter fun r => r.owner != owner else rows

/-- Where a call stands. A logout carries the owner of the token it was presented,
if the token was valid on arrival, and the user of its access token. -/
inductive Call where
  | read (row : RefreshToken)
  | deleted (row : RefreshToken)
  | vetted (row : RefreshToken)
  | presenting (token : String) (valid caller : Option Owner)
  | found (owner : Owner) (valid caller : Option Owner)
  | unknown (token : String) (valid caller : Option Owner)
  | revoked (valid caller : Option Owner)
  | ready (valid : Option Owner)
  | done
  deriving DecidableEq

inductive Arrival where
  | login (owner : Owner) (token : String) (expiresAt : Int)
  | refresh (token : String)
  | logout (token : Option String) (caller : Option Owner)

/-- The operations of the calls, with how the store answers them. -/
inductive Op where
  | delete (now : Int) (ok : Bool)
  | lookUp (enabled : Bool)
  | store (token : String) (expiresAt : Int) (ok : Bool)
  | find (ok : Bool)
  | revoke (ok : Bool)
  | revokeCaller (ok : Bool)
  | answer
  deriving DecidableEq

def arrive (g : Store) : Arrival → Option (Store × Call)
  | .login owner token expiresAt =>
    if token ∈ issuedBy g.log then none
    else some (⟨storeRefreshToken g.rows ⟨token, owner, expiresAt⟩ true,
      g.log ++ [.opened owner token]⟩, .done)
  | .refresh token =>
    match getRefreshToken g.rows token with
    | none => some (g, .done)
    | some row => some (g, .read row)
  | .logout none caller => some (g, .revoked none caller)
  | .logout (some token) caller =>
    some (g, .presenting token ((getRefreshToken g.rows token).map (·.owner)) caller)

def perform (g : Store) : Call → Op → Option (Store × Call)
  | .read row, .delete now ok =>
    -- an expired token is deleted too, and refused
    some ({ g with rows := deleteRefreshToken g.rows row.token ok },
      if row.expiresAt < now then .done else .deleted row)
  | .deleted row, .lookUp enabled => some (g, if enabled then .vetted row else .done)
  | .vetted row, .store token expiresAt ok =>
    if token ∈ issuedBy g.log then none
    else some (⟨storeRefreshToken g.rows ⟨token, row.owner, expiresAt⟩ ok,
      g.log ++ [.exchanged row.owner row.token token]⟩, .done)
  | .presenting token valid caller, .find ok =>
    match if ok then getRefreshToken g.rows token else none with
    | some row => some (g, .found row.owner valid caller)
    | none => some (g, .unknown token valid caller)
  | .found owner valid caller, .revoke ok =>
    some ({ g with rows := deleteRefreshTokensByUser g.rows owner ok }, .revoked valid caller)
  | .unknown token valid caller, .revoke ok =>
    some ({ g with rows := deleteRefreshToken g.rows token ok }, .revoked valid caller)
  | .revoked valid none, .revokeCaller _ => some (g, .ready valid)
  | .revoked valid (some caller), .revokeCaller ok =>
    some ({ g with rows := deleteRefreshTokensByUser g.rows caller ok }, .ready valid)
  | .ready none, .answer => some (g, .done)
  | .ready (some owner), .answer => some ({ g with log := g.log ++ [.loggedOut owner] }, .done)
  | _, _ => none

def handlers : Program Store Call Arrival Op := ⟨arrive, perform⟩

abbrev Hub := System Store Call

/-- No token has been issued. -/
def initial : Hub := ⟨⟨[], []⟩, []⟩

/-- One operation of one call. -/
def step : Hub → Event Arrival Op → Option Hub := Interleaving.step handlers

/-- No token value is exchanged twice. -/
def SpentOnce : Prop := (spentBy log).Nodup

instance (log : List Entry) : Decidable (SpentOnce log) :=
  inferInstanceAs (Decidable (List.Nodup _))

inductive Stale (before after : List Entry) : String → Prop
  | issued {token : String} : token ∈ issuedBy before → Stale before after token
  | exchanged {owner : Owner} {old new : String} : Stale before after old →
      Entry.exchanged owner old new ∈ after → Stale before after new

/-- Once a logout that was presented a valid token of a user is answered, no token
of the user issued before the answer, nor any obtained from one, is accepted. -/
def EndedByLogout : Prop :=
  ∀ before after owner, log = before ++ Entry.loggedOut owner :: after →
    ∀ old new, Entry.exchanged owner old new ∈ after → ¬Stale before after old

def Call.refreshing : Call → Option RefreshToken
  | .read row => some row
  | .deleted row => some row
  | .vetted row => some row
  | _ => none

/-- The user whose tokens a logout has deleted, until it answers. -/
def Call.cleared : Call → Option Owner
  | .revoked valid _ => valid
  | .ready valid => valid
  | _ => none

def Call.holds : Call → Bool
  | .read row => row.token == token
  | _ => false

/-- The order in which the two properties hold. A refresh reads a token only while
no other refresh is between its read and its delete of it, and its delete goes
through. A logout that was presented a valid token still finds it, its delete goes
through, and runs while no refresh of the user is under way; no login of the user
is answered between that delete and the logout's answer. -/
def orderly (s : Hub) : Event Arrival Op → Bool
  | .start (.refresh token) => s.calls.all fun l => !l.holds token
  | .start (.login owner _ _) => s.calls.all fun l => l.cleared != some owner
  | .start (.logout _ _) => true
  | .act i op =>
    match s.calls[i]?, op with
    | some (.read row), .delete now ok => ok || decide (row.expiresAt < now)
    | some (.presenting token valid _), .find ok =>
      valid.isNone || ok && (getRefreshToken s.shared.rows token).isSome
    | some (.found owner valid _), .revoke ok =>
      valid.isNone || ok && s.calls.all fun l => l.refreshing.all fun r => r.owner != owner
    | _, _ => true

end MeshsatHub.Session
