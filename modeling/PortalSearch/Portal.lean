import PortalSearch.Error
import PortalSearch.Url.Percent

/-!
# Portals and the addresses in them

The address of the portal comes from one of three places: it is given with the call, or
belongs to the credentials, or is the one of the environment; the first that counts as
given is taken, without slashes at its end. Users and groups have addresses in it that
hold their identifier as one percent-encoded segment.
-/

namespace PortalSearch

/-- What a session knows: the portal it was opened for and its user. What it does not know is
`Value.null`. -/
structure Credentials where
  /-- the portal -/
  portal : Value
  /-- the name of the user -/
  username : Value

/-- No session. -/
def Credentials.none : Credentials := ⟨.null, .null⟩

/-- What all calls share. -/
structure Environment where
  /-- the portal to use if no other is known -/
  portal : Value
  /-- whether there is a receiver for warnings -/
  takesWarnings : Bool

namespace Portal

/-- The portal that is used where nothing else is set. -/
def standard : Text := "https://www.arcgis.com/sharing/rest"

/-- Without slashes at the end. -/
def trimSlashes (t : Text) : Text := (t.reverse.dropWhile (· == '/')).reverse

/-- The address of the portal for a call. -/
def address (env : Environment) (portal : Value) (who : Credentials) : Except Error Text :=
  match (portal.orElse who.portal).orElse env.portal with
  | .text t => .ok (trimSlashes t)
  | _ => .error .portalNotText

/-- The address of the user that the credentials name. -/
def userAddress (env : Environment) (who : Credentials) : Except Error Text :=
  if !who.username.isGiven then .error .noUsername
  else (address env .null who).map fun base =>
    base ++ "/community/users/" ++ Url.encode who.username.toText

/-- The address of a group. -/
def groupAddress (env : Environment) (group portal : Value) (who : Credentials) :
    Except Error Text :=
  if !group.isGiven then .error .noGroup
  else (address env portal who).map fun base =>
    base ++ "/community/groups/" ++ Url.encode group.toText

end Portal

/-- The environment that nothing was set in. -/
def Environment.initial : Environment := ⟨.text Portal.standard, false⟩

end PortalSearch
