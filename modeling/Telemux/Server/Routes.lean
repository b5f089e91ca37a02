import Telemux.Net.Mux
import Telemux.Server.Auth

/-!
# The routes of the panel

Package `server`: the patterns that `New` registers, and what they are behind.
`wrap` decides on the decoded path of a request, and the mux on the escaped one.
-/

namespace Telemux
namespace Server

open Net

inductive Endpoint where
  | healthz
  | version
  | role
  | syncStatus
  | sync
  | listUsers
  | createUser
  | deleteUser
  | renewUser
  | enableUser
  | disableUser
  | listNodes
  | heartbeat
  | joinToken
  | join
  | index
  | me
  | login
  | logout
deriving DecidableEq, Repr

def HandleFunc (pattern : String) (handler : Endpoint) : Route Endpoint :=
  ⟨parsePattern (utf8 pattern), handler⟩

def routesUsers : List (Route Endpoint) :=
  [HandleFunc "GET /api/users" .listUsers,
    HandleFunc "POST /api/users" .createUser,
    HandleFunc "DELETE /api/users/\x7busername\x7d" .deleteUser,
    HandleFunc "POST /api/users/\x7busername\x7d/renew" .renewUser,
    HandleFunc "POST /api/users/\x7busername\x7d/enable" .enableUser,
    HandleFunc "POST /api/users/\x7busername\x7d/disable" .disableUser]

def routesCluster : List (Route Endpoint) :=
  [HandleFunc "GET /api/nodes" .listNodes,
    HandleFunc "POST /api/cluster/heartbeat" .heartbeat,
    HandleFunc "POST /api/cluster/join-token" .joinToken,
    HandleFunc "GET /join/\x7btoken\x7d" .join]

/-- `auth.routes`. -/
def authRoutes : List (Route Endpoint) :=
  [HandleFunc "GET /api/me" .me,
    HandleFunc "POST /api/login" .login,
    HandleFunc "POST /api/logout" .logout]

def routes (users cluster : Bool) : List (Route Endpoint) :=
  [HandleFunc "GET /healthz" .healthz,
    HandleFunc "GET /api/version" .version,
    HandleFunc "GET /api/role" .role,
    HandleFunc "GET /api/sync/status" .syncStatus,
    HandleFunc "POST /api/sync" .sync] ++
  (if users then routesUsers else []) ++
  (if cluster then routesCluster else []) ++
  [HandleFunc "GET /" .index] ++
  authRoutes

/-- What the panel does with a request: `wrap` refuses it, or the mux serves it. -/
inductive PanelReply where
  | unauthorized
  | served (s : Served Endpoint)
deriving DecidableEq

/-- `Server.Handler`, on a request at a time. -/
def Auth.serve (a : Auth) (users cluster : Bool) (now : Int) (cookie : Option String)
    (req : Request) : PanelReply :=
  if (a.wrap now req.path cookie).1 then .served (serveHTTP (routes users cluster) req)
  else .unauthorized

/-- An encoded dot segment is public for `wrap`, and no route of the API for the mux. -/
example : (newAuth "" "secret").serve true true 0 none
    { method := utf8 "GET"
      path := utf8 "/api/cluster/../users"
      rawPath := utf8 "/api/cluster/%2e%2e/users" } = .served (.handler .index []) := by
  decide +kernel

example : (newAuth "" "").serve true true 0 none
    { method := utf8 "DELETE"
      path := utf8 "/api/users/a/b"
      rawPath := utf8 "/api/users/a%2Fb" } = .served (.handler .deleteUser [utf8 "a/b"]) := by
  decide +kernel

/-!
## Paths that are not public
-/

def clash : Bytes -> Bytes -> Bool
  | a :: u, b :: v => decide (a ≠ b) || clash u v
  | _, _ => false

theorem clash_prefix {u p rest : Bytes} (h : clash u p = true) :
    u.isPrefixOf (p ++ rest) = false := by
  induction u generalizing p with
  | nil => cases h
  | cons a u ih =>
      cases p with
      | nil => cases h
      | cons b p =>
          rw [List.cons_append, List.isPrefixOf]
          rcases Bool.or_eq_true_iff.mp h with hne | hrest
          · simp [of_decide_eq_true hne]
          · rw [ih hrest, Bool.and_false]

/-- Whatever starts like this is a path that `wrap` asks for a session. -/
def guarded (p : Bytes) : Bool :=
  (utf8 "/api/").isPrefixOf p &&
    [utf8 "/healthz", utf8 "/api/login", utf8 "/api/me", utf8 "/api/cluster/",
      utf8 "/join/"].all fun u => clash u p

theorem isPublic_guarded {p path : Bytes} (h : guarded p = true) (hstarts : p <+: path) :
    isPublic path = false := by
  rcases hstarts with ⟨rest, rfl⟩
  unfold guarded at h
  simp only [List.all_cons, List.all_nil, Bool.and_true, Bool.and_eq_true] at h
  rcases h with ⟨hapi, hhealthz, hlogin, hme, hcluster, hjoin⟩
  have hne : forall {u : Bytes}, clash u p = true -> p ++ rest ≠ u := by
    intro u hclash heq
    have hself : u.isPrefixOf (p ++ rest) = false := clash_prefix hclash
    rw [heq, List.isPrefixOf_iff_prefix.mpr List.prefix_rfl] at hself
    cases hself
  have hunder : (utf8 "/api/").isPrefixOf (p ++ rest) = true := by
    rw [List.isPrefixOf_iff_prefix] at hapi ⊢
    exact hapi.trans (List.prefix_append p rest)
  unfold isPublic
  simp [hne hhealthz, hne hlogin, hne hme, clash_prefix hcluster, clash_prefix hjoin, hunder]

/-!
## Mediation
-/

def openEndpoints : List Endpoint :=
  [.healthz, .me, .login, .heartbeat, .joinToken, .join, .index]

theorem routes_guarded (users cluster : Bool) :
    forall r, r ∈ routes users cluster ->
      r.pattern.method ≠ utf8 "CONNECT" ∧ r.pattern.method ≠ [] ∧
        (r.handler ∈ openEndpoints ∨
          guarded (joined (literalPrefix r.pattern.segments)) = true ∧
            [slash] ∉ literalPrefix r.pattern.segments) := by
  cases users <;> cases cluster <;> decide +kernel

theorem handler_guarded {users cluster : Bool} {req : Request} {e : Endpoint}
    {pathValues : List Bytes}
    (h : findHandler (routes users cluster) req = .handler e pathValues) :
    e ∈ openEndpoints ∨ isPublic req.path = false := by
  rcases findHandler_fits h with ⟨r, hin, rfl, hfits, hrooted⟩
  rcases routes_guarded users cluster r hin with ⟨hconnect, hmethod, hopen | ⟨hguarded, hplain⟩⟩
  · exact Or.inl hopen
  · have hslash : (EscapedPath req.path req.rawPath).head? = some slash := by
      rcases hrooted with hslash | hbad | hbad
      · exact hslash
      · exact absurd hbad hconnect
      · exact absurd hbad hmethod
    have hpath := unescape_escapedPath req.path req.rawPath
    cases hescaped : EscapedPath req.path req.rawPath with
    | nil =>
        rw [hescaped] at hslash
        cases hslash
    | cons b tail =>
        rw [hescaped] at hslash hpath hfits
        cases hslash
        exact Or.inr (isPublic_guarded hguarded (fits_path hpath hfits hplain))

/--
Without a session nothing is served but the open endpoints and what the mux
answers by itself, however the path is encoded.
-/
theorem panel_mediates {a : Auth} {now : Int} {cookie : Option String}
    (henabled : a.enabled = true) (hcookie : (a.valid now cookie).1 = false)
    (users cluster : Bool) (req : Request) :
    a.serve users cluster now cookie req = .unauthorized ∨
      exists s, a.serve users cluster now cookie req = .served s ∧
        ((exists e pathValues, s = .handler e pathValues ∧ e ∈ openEndpoints) ∨
          (exists path, s = .redirect path) ∨ s = .notFound ∨
          (exists allow, s = .methodNotAllowed allow) ∨ s = .badRequest ∧ req.star = true) := by
  have hwrap : (a.wrap now req.path cookie).1 = isPublic req.path := by
    unfold Auth.wrap
    cases hpublic : isPublic req.path with
    | true => simp
    | false => simpa [henabled] using hcookie
  unfold Auth.serve
  rw [hwrap]
  cases hpublic : isPublic req.path with
  | false => exact Or.inl rfl
  | true =>
      refine Or.inr ⟨serveHTTP (routes users cluster) req, rfl, ?_⟩
      unfold serveHTTP
      split
      · rename_i hstar
        exact Or.inr (Or.inr (Or.inr (Or.inr ⟨rfl, hstar⟩)))
      · cases hserved : findHandler (routes users cluster) req with
        | handler e pathValues =>
            rcases handler_guarded hserved with hopen | hprivate
            · exact Or.inl ⟨e, pathValues, rfl, hopen⟩
            · rw [hpublic] at hprivate
              cases hprivate
        | redirect path => exact Or.inr (Or.inl ⟨path, rfl⟩)
        | notFound => exact Or.inr (Or.inr (Or.inl rfl))
        | methodNotAllowed allow => exact Or.inr (Or.inr (Or.inr (Or.inl ⟨allow, rfl⟩)))
        | badRequest => exact absurd hserved findHandler_not_bad

theorem panel_mediates_sample :
    (newAuth "" "secret").serve true true 0 none
        { method := utf8 "GET", path := utf8 "/api/users" } = .unauthorized ∨
      exists s, (newAuth "" "secret").serve true true 0 none
          { method := utf8 "GET", path := utf8 "/api/users" } = .served s ∧
        ((exists e pathValues, s = .handler e pathValues ∧ e ∈ openEndpoints) ∨
          (exists path, s = .redirect path) ∨ s = .notFound ∨
          (exists allow, s = .methodNotAllowed allow) ∨ s = .badRequest ∧ false = true) :=
  panel_mediates rfl rfl true true { method := utf8 "GET", path := utf8 "/api/users" }

/-- The mux may also say that the method is not allowed. -/
theorem panel_refuses_method :
    ¬ forall req : Request,
      (newAuth "" "secret").serve true true 0 none req = .unauthorized ∨
        exists s, (newAuth "" "secret").serve true true 0 none req = .served s ∧
          ((exists e pathValues, s = .handler e pathValues ∧ e ∈ openEndpoints) ∨
            (exists path, s = .redirect path) ∨ s = .notFound) := by
  intro h
  have hput : (newAuth "" "secret").serve true true 0 none
      { method := utf8 "PUT", path := utf8 "/healthz" } =
      .served (.methodNotAllowed [utf8 "GET", utf8 "HEAD"]) := by
    decide +kernel
  rcases h { method := utf8 "PUT", path := utf8 "/healthz" } with hrefused | ⟨s, hserved, hs⟩
  · rw [hput] at hrefused
    cases hrefused
  · rw [hput] at hserved
    cases hserved
    rcases hs with ⟨e, pathValues, heq, _⟩ | ⟨path, heq⟩ | heq
    · cases heq
    · cases heq
    · cases heq

end Server
end Telemux
