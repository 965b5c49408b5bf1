import MeshsatHub.Foundations.Strings

/-!
# From a credential to a tenant

`internal/auth/auth.go` in oidc mode: a bearer becomes a user, and `TenantMiddleware` picks the
tenant. What the verifiers and the tables answer is a parameter, `Credentials`.
-/

namespace MeshsatHub.Access
open Strings Except

structure User where
  id : String
  email : String
  name : String
  roles : List String
  tenantID : String
  platformAdmin : Bool
  /-- Signed in with a Hub session token. -/
  session : Bool
  deriving DecidableEq

structure SessionClaims where
  userID : String
  email : String
  name : String
  role : String
  tenantID : String
  platformAdmin : Bool

structure OIDCIdentity where
  tenantID : String
  userID : String
  platformAdmin : Bool

structure UserRow where
  id : String
  email : String
  name : String
  role : String
  enabled : Bool

inductive Denial where
  | missingCredential
  | invalidToken
  | invalidClaims
  | unknownSubject
  | tenantRequired
  | tenantSuspended
  | tenantDeleted
  | supportAccessRequired
  deriving DecidableEq

/-- What the verifiers and the tables answer when a request comes in. -/
structure Credentials where
  /-- The static token, presented on a channel that honours it. -/
  breakGlass : String → Bool
  verifyAccessToken : String → Option SessionClaims
  /-- The subject of a bearer the identity provider signed. -/
  providerSubject : String → Except Denial String
  hasResolver : Bool
  getOIDCIdentity : String → Option OIDCIdentity
  getUserByID : String → String → Option UserRow

def breakGlassUser : User where
  id := "token-user"
  email := ""
  name := "API Token"
  roles := ["admin"]
  tenantID := ""
  platformAdmin := true
  session := false

def SessionClaims.user (claims : SessionClaims) : User where
  id := claims.userID
  email := claims.email
  name := claims.name
  roles := [claims.role]
  tenantID := claims.tenantID
  platformAdmin := claims.platformAdmin
  session := true

/-- `ResolveSubject`: role and tenant come from the users table. -/
def resolveSubject (c : Credentials) (subject : String) : Option User :=
  match c.getOIDCIdentity subject with
  | none => none
  | some ident =>
    match c.getUserByID ident.tenantID ident.userID with
    | none => none
    | some u =>
      if u.enabled then
        some
          { id := u.id
            email := u.email
            name := u.name
            roles := [u.role]
            tenantID := ident.tenantID
            platformAdmin := ident.platformAdmin
            session := false }
      else none

/-- A bearer becomes a user, by `ResolveSubject` of `internal/api/oidc.go` if the identity provider
issued it. -/
def sessionOrProviderMiddleware (c : Credentials) (provided : String) : Except Denial User :=
  if provided = "" then .error .missingCredential
  else if c.breakGlass provided then .ok breakGlassUser
  else
    match c.verifyAccessToken provided with
    | some claims => .ok claims.user
    | none =>
      if !c.hasResolver then .error .invalidToken
      else
        match c.providerSubject provided with
        | .error denial => .error denial
        | .ok subject =>
          match resolveSubject c subject with
          | some u => .ok u
          | none => .error .unknownSubject

/-- The bearer is a person's: of a Hub session, or one of the identity provider
that resolves to a row of the users table. -/
structure Person (c : Credentials) (provided : String) (u : User) : Prop where
  notToken : c.breakGlass provided = false
  authenticated : sessionOrProviderMiddleware c provided = .ok u

theorem resolveSubject_session {c : Credentials} {subject : String} {u : User}
    (h : resolveSubject c subject = some u) : u.session = false := by
  revert h
  fun_cases resolveSubject c subject with rintro ⟨⟩
  | case3 => rfl

theorem Person.session_eq {c : Credentials} {provided : String} {u : User}
    (h : Person c provided u) : u.session = (c.verifyAccessToken provided).isSome := by
  have hauth := h.authenticated
  revert hauth
  fun_cases sessionOrProviderMiddleware c provided with
  | case1 | case4 | case5 | case7 => rintro ⟨⟩
  | case2 _ htoken => rw [h.notToken] at htoken; cases htoken
  | case3 _ _ claims hclaims =>
    rw [hclaims]
    rintro ⟨⟩
    rfl
  | case6 _ _ hclaims _ _ _ u hresolved =>
    rw [hclaims]
    rintro ⟨⟩
    exact resolveSubject_session hresolved

/-- What the status lookup answers; a failed one lets the request through. -/
inductive TenantStatus where
  | active
  | suspended
  | deleted
  | failed

def statusGate (tenantID : String) : TenantStatus → Except Denial String
  | .suspended => .error .tenantSuspended
  | .deleted => .error .tenantDeleted
  | .active => .ok tenantID
  | .failed => .ok tenantID

def opensOther (u : User) (header : String) : Bool :=
  u.platformAdmin && trimSpace header ≠ "" && trimSpace header ≠ "default" &&
    trimSpace header ≠ u.tenantID

def consentAsked (u : User) (header : String) : Option String :=
  let h := trimSpace header
  if u.platformAdmin ∧ h ≠ "" ∧ u.session ∧ h ≠ "default" ∧ h ≠ u.tenantID then some h else none

/-- The tenant a request is for, before its status is looked up. -/
def pickTenant (enforce : Bool) (u : User) (contextTenant header : String) (opened : Bool) :
    Except Denial String :=
  let h := trimSpace header
  if u.platformAdmin ∧ h ≠ "" then
    if (consentAsked u header).isSome ∧ opened = false then .error .supportAccessRequired
    else .ok h
  else if u.tenantID ≠ "" then .ok u.tenantID
  else if contextTenant ≠ "" then .ok contextTenant
  else if enforce then .error .tenantRequired
  else .ok "default"

/-- The tenant a user's request is served in; `opened` is the answer of the
consent check, taken as no when it fails. -/
def tenantMiddleware (enforce : Bool) (u : User) (contextTenant header : String) (opened : Bool)
    (status : String → TenantStatus) : Except Denial String :=
  match pickTenant enforce u contextTenant header opened with
  | .error denial => .error denial
  | .ok tenantID => statusGate tenantID (status tenantID)

variable {enforce opened : Bool} {u : User} {header t : String} {status : String → TenantStatus}

theorem statusGate_ok {s : TenantStatus} {tenantID : String} (h : statusGate tenantID s = .ok t) :
    t = tenantID := by
  cases s with
  | active | failed => exact (ok.inj h).symm
  | suspended | deleted => cases h

/-- A person is served in another tenant, not the default one, only as the header
of a platform administrator says, and, where consent is asked for, only with it. -/
theorem tenantMiddleware_foreign
    (h : tenantMiddleware enforce u u.tenantID header opened status = .ok t)
    (hown : t ≠ u.tenantID) (hdefault : t ≠ "default") :
    opensOther u header ∧ trimSpace header = t ∧
      (u.session → consentAsked u header = some t ∧ opened) := by
  rw [tenantMiddleware] at h
  cases hpick : pickTenant enforce u u.tenantID header opened with rw [hpick] at h
  | error denial => cases h
  | ok tenantID =>
    obtain rfl := statusGate_ok h
    rw [pickTenant] at hpick
    split at hpick
    · rename_i hheader
      split at hpick
      · cases hpick
      · rename_i hconsent
        have ht : trimSpace header = t := ok.inj hpick
        have hother : opensOther u header := by
          simp [opensOther, hheader, ht ▸ hdefault, ht ▸ hown]
        refine ⟨hother, ht, fun hsession => ?_⟩
        have hasked : consentAsked u header = some t := by
          rw [consentAsked, if_pos ⟨hheader.1, hheader.2, hsession, ht ▸ hdefault, ht ▸ hown⟩, ht]
        refine ⟨hasked, ?_⟩
        rw [hasked] at hconsent
        simpa using hconsent
    · split at hpick
      · exact absurd (ok.inj hpick).symm hown
      · split at hpick
        · cases hpick
        · exact absurd (ok.inj hpick).symm hdefault

theorem tenantMiddleware_header (h : u.platformAdmin = false) (contextTenant header' : String) :
    tenantMiddleware enforce u contextTenant header opened status =
      tenantMiddleware enforce u contextTenant header' opened status := by
  simp only [tenantMiddleware, pickTenant, h, Bool.false_eq_true, false_and, if_false]

theorem tenantMiddleware_sessionless (hadmin : u.platformAdmin)
    (hsession : u.session = false) (hheader : trimSpace header ≠ "") (contextTenant : String) :
    tenantMiddleware enforce u contextTenant header opened (fun _ => .active) =
      .ok (trimSpace header) := by
  simp [tenantMiddleware, pickTenant, consentAsked, hadmin, hsession, hheader, statusGate]

end MeshsatHub.Access
