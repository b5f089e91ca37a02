import Mathlib.Logic.Function.Basic
import Telemux.Net.Json
import Telemux.Net.Url

/-!
# Sessions of the panel

Package `server`, `auth.go`: an administrator logs in and gets a token, which a
cookie carries; `wrap` asks for it wherever a path is not public.  Every function
takes the time it reads, and gives the sessions it leaves.
-/

namespace Telemux
namespace Server

open Net

/-- `auth`; a session is kept with the time it expires, in nanoseconds. -/
structure Auth where
  user : String
  pass : String
  enabled : Bool
  ttl : Int
  sessions : String -> Option Int

def sessionCookie : String := "telemux_session"

/-- `24 * time.Hour`. -/
def sessionTTL : Int := 24 * 60 * 60 * 1000000000

def newAuth (user pass : String) : Auth where
  user := if user = "" then "admin" else user
  pass := pass
  enabled := decide (pass ≠ "")
  ttl := sessionTTL
  sessions _ := none

/-!
## Checks
-/

def Auth.valid (a : Auth) (now : Int) (cookie : Option String) : Bool × Auth :=
  match cookie with
  | none => (false, a)
  | some c =>
      match a.sessions c with
      | none => (false, a)
      | some exp =>
          if exp < now then (false, { a with sessions := Function.update a.sessions c none })
          else (true, a)

def isPublic (path : Bytes) : Bool :=
  decide (path = utf8 "/healthz") || decide (path = utf8 "/api/login") ||
    decide (path = utf8 "/api/me") || (utf8 "/api/cluster/").isPrefixOf path ||
    (utf8 "/join/").isPrefixOf path || !(utf8 "/api/").isPrefixOf path

/-- Whether `wrap` lets a request through to what it wraps. -/
def Auth.wrap (a : Auth) (now : Int) (path : Bytes) (cookie : Option String) : Bool × Auth :=
  if !a.enabled || isPublic path then (true, a) else a.valid now cookie

/-!
## Handlers
-/

structure LoginBody where
  username : String := ""
  password : String := ""
deriving DecidableEq, Repr

/-- A string member, or what was there when it is something else. -/
def lenientString (old : String) (v : Json) : String :=
  (decodeString old v).getD old

/-- The body of a login, whose errors are ignored. -/
def decodeLoginBody : Option Json -> LoginBody
  | some (.obj members) =>
      members.foldl
        (fun body member =>
          if isField "Username" member.1 then
            { body with username := lenientString body.username member.2 }
          else if isField "Password" member.1 then
            { body with password := lenientString body.password member.2 }
          else body)
        {}
  | _ => {}

structure SetCookie where
  name : String
  value : String
  path : String
  httpOnly : Bool := false
  sameSiteLax : Bool := false
  maxAge : Int
deriving DecidableEq, Repr

inductive AuthReply where
  | unauthorized (message : String)
  | ok (cookie : SetCookie)
deriving DecidableEq, Repr

def Auth.accepts (a : Auth) (body : LoginBody) : Bool :=
  a.enabled && decide (body.username = a.user) && decide (body.password = a.pass)

/-- `POST /api/login`; `tok` is what `newToken` draws. -/
def Auth.login (a : Auth) (now : Int) (tok : String) (body : LoginBody) : AuthReply × Auth :=
  if a.accepts body then
    (.ok
      { name := sessionCookie
        value := tok
        path := "/"
        httpOnly := true
        sameSiteLax := true
        maxAge := a.ttl / 1000000000 },
      { a with sessions := Function.update a.sessions tok (some (now + a.ttl)) })
  else (.unauthorized "неверный логин или пароль", a)

/-- `POST /api/logout`, behind `wrap`. -/
def Auth.logout (a : Auth) (cookie : Option String) : AuthReply × Auth :=
  (.ok { name := sessionCookie, value := "", path := "/", maxAge := -1 },
    match cookie with
    | none => a
    | some c => { a with sessions := Function.update a.sessions c none })

/-- `GET /api/me`: whether auth is enabled, and whether the request would be let through. -/
def Auth.me (a : Auth) (now : Int) (cookie : Option String) : (Bool × Bool) × Auth :=
  if a.enabled then ((true, (a.valid now cookie).1), (a.valid now cookie).2)
  else ((false, true), a)

example :
    decodeLoginBody (some (.obj [("username", .str "admin"), ("USERNAME", .int 1),
      ("password", .str "p")])) = { username := "admin", password := "p" } := by
  decide +kernel

end Server
end Telemux
