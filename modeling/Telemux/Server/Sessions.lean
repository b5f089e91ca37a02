import Mathlib.Data.List.Nodup
import Telemux.Interaction.Transitions
import Telemux.Net.JsonWhole
import Telemux.Server.Auth

/-!
# The life of a session

Logins, logouts and requests reach the panel in any order.  A logout is two steps:
`wrap` lets it through, and some time later the handler drops the session.
The sessions of the panel are those of its history, expired ones apart.
-/

namespace Telemux
namespace Server

open Interaction Net

/-!
## Runs
-/

structure Panel where
  auth : Auth
  /-- The cookies of the logouts that `wrap` has let through and the handler has not served. -/
  leaving : List (Option String) := []

inductive AuthEvent where
  /-- `POST /api/login`, with the token that would be drawn and the reply. -/
  | login (now : Int) (raw : Bytes) (broken : Bool) (tok : String) (reply : AuthReply)
  | request (now : Int) (path : Bytes) (cookie : Option String)
  | me (now : Int) (cookie : Option String)
  | logout (now : Int) (cookie : Option String)
  | loggedOut (cookie : Option String)

def AuthEvent.time : AuthEvent -> Option Int
  | .login now _ _ _ _ => some now
  | .request now _ _ => some now
  | .me now _ => some now
  | .logout now _ => some now
  | .loggedOut _ => none

section Panel

variable [JsonStream]

inductive PanelStep : Panel -> AuthEvent -> Panel -> Prop where
  | login {p : Panel} {now : Int} {raw : Bytes} {broken : Bool} {tok : String} :
      PanelStep p
        (.login now raw broken tok
          (p.auth.login now tok (decodeLoginBody (JsonStream.first raw broken))).1)
        { p with
          auth := (p.auth.login now tok (decodeLoginBody (JsonStream.first raw broken))).2 }
  | request {p : Panel} {now : Int} {path : Bytes} {cookie : Option String} :
      PanelStep p (.request now path cookie)
        { p with auth := (p.auth.wrap now path cookie).2 }
  | me {p : Panel} {now : Int} {cookie : Option String} :
      PanelStep p (.me now cookie) { p with auth := (p.auth.me now cookie).2 }
  | refused {p : Panel} {now : Int} {cookie : Option String} :
      (p.auth.wrap now (utf8 "/api/logout") cookie).1 = false ->
      PanelStep p (.logout now cookie)
        { p with auth := (p.auth.wrap now (utf8 "/api/logout") cookie).2 }
  | logout {p : Panel} {now : Int} {cookie : Option String} :
      (p.auth.wrap now (utf8 "/api/logout") cookie).1 = true ->
      PanelStep p (.logout now cookie)
        { auth := (p.auth.wrap now (utf8 "/api/logout") cookie).2
          leaving := cookie :: p.leaving }
  | loggedOut {p : Panel} {cookie : Option String} : cookie ∈ p.leaving ->
      PanelStep p (.loggedOut cookie)
        { auth := (p.auth.logout cookie).2, leaving := p.leaving.erase cookie }

def Auth.drawn (a : Auth) : AuthEvent -> Option String
  | .login _ raw broken tok _ =>
      if a.accepts (decodeLoginBody (JsonStream.first raw broken)) then some tok else none
  | .request _ _ _ => none
  | .me _ _ => none
  | .logout _ _ => none
  | .loggedOut _ => none

theorem drawn_login {a : Auth} {now : Int} {raw : Bytes} {broken : Bool} {tok : String}
    {reply : AuthReply} (h : a.accepts (decodeLoginBody (JsonStream.first raw broken)) = true) :
    a.drawn (.login now raw broken tok reply) = some tok :=
  if_pos h

/--
At `issued` a login with the configured user and password was answered with `c` in the
session cookie, and no logout with `c` has been served since.
-/
def Auth.LoggedIn (a : Auth) (es : List AuthEvent) (c : String) (issued : Int) : Prop :=
  exists before raw broken tok cookie after,
    es = before ++ .login issued raw broken tok (.ok cookie) :: after ∧
    (decodeLoginBody (JsonStream.first raw broken)).username = a.user ∧
    (decodeLoginBody (JsonStream.first raw broken)).password = a.pass ∧
    cookie.name = sessionCookie ∧ cookie.value = c ∧ .loggedOut (some c) ∉ after

/-- The same by the token that was drawn, whatever the reply. -/
def Auth.Issued (a : Auth) (es : List AuthEvent) (c : String) (issued : Int) : Prop :=
  exists before raw broken reply after,
    es = before ++ .login issued raw broken c reply :: after ∧
    a.accepts (decodeLoginBody (JsonStream.first raw broken)) = true ∧
    .loggedOut (some c) ∉ after

/-- A login was answered as `a` answers it. -/
def Auth.Answers (a : Auth) (e : AuthEvent) : Prop :=
  forall now raw broken tok reply, e = .login now raw broken tok reply ->
    reply = (a.login now tok (decodeLoginBody (JsonStream.first raw broken))).1

theorem loggedIn_iff {a : Auth} {es : List AuthEvent} {c : String} {issued : Int}
    (henabled : a.enabled = true) (hes : forall e, e ∈ es -> a.Answers e) :
    a.LoggedIn es c issued <-> a.Issued es c issued := by
  constructor
  · intro h
    rcases h with ⟨before, raw, broken, tok, cookie, after, rfl, huser, hpass, _, hvalue, hafter⟩
    have haccepts : a.accepts (decodeLoginBody (JsonStream.first raw broken)) = true := by
      simp [Auth.accepts, henabled, huser, hpass]
    have hreply := hes _ (List.mem_append_right _ List.mem_cons_self) _ _ _ _ _ rfl
    rw [Auth.login, if_pos haccepts] at hreply
    cases hreply
    cases hvalue
    exact ⟨before, raw, broken, _, after, rfl, haccepts, hafter⟩
  · intro h
    rcases h with ⟨before, raw, broken, reply, after, rfl, haccepts, hafter⟩
    have hreply := hes _ (List.mem_append_right _ List.mem_cons_self) _ _ _ _ _ rfl
    rw [Auth.login, if_pos haccepts] at hreply
    cases hreply
    simp only [Auth.accepts, Bool.and_eq_true, decide_eq_true_iff] at haccepts
    exact ⟨before, raw, broken, c, _, after, rfl, haccepts.left.right, haccepts.right, rfl, rfl,
      hafter⟩

/-!
## The history, one event later
-/

variable {a : Auth} {es : List AuthEvent} {c : String} {issued : Int}

theorem issued_snoc {e : AuthEvent} :
    a.Issued (es ++ [e]) c issued <->
      a.Issued es c issued ∧ e ≠ .loggedOut (some c) ∨
        exists raw broken reply, e = .login issued raw broken c reply ∧
          a.accepts (decodeLoginBody (JsonStream.first raw broken)) = true := by
  constructor
  · intro h
    rcases h with ⟨before, raw, broken, reply, after, hes, haccepts, hafter⟩
    rcases List.eq_nil_or_concat after with rfl | ⟨rest, last, rfl⟩
    · rcases List.append_inj' hes rfl with ⟨_, hlast⟩
      cases hlast
      exact Or.inr ⟨raw, broken, reply, rfl, haccepts⟩
    · rw [List.concat_eq_append, ← List.cons_append, ← List.append_assoc] at hes
      rcases List.append_inj' hes rfl with ⟨rfl, hlast⟩
      cases hlast
      simp only [List.concat_eq_append, List.mem_append, List.mem_singleton, not_or] at hafter
      exact Or.inl ⟨⟨before, raw, broken, reply, rest, rfl, haccepts, hafter.left⟩,
        Ne.symm hafter.right⟩
  · intro h
    rcases h with ⟨⟨before, raw, broken, reply, after, rfl, haccepts, hafter⟩, hne⟩ |
      ⟨raw, broken, reply, rfl, haccepts⟩
    · refine ⟨before, raw, broken, reply, after ++ [e], by simp, haccepts, ?_⟩
      simpa using ⟨hafter, Ne.symm hne⟩
    · exact ⟨es, raw, broken, reply, [], rfl, haccepts, List.not_mem_nil⟩

theorem drawn_of_issued (h : a.Issued es c issued) : c ∈ es.filterMap a.drawn := by
  rcases h with ⟨before, raw, broken, reply, after, rfl, haccepts, _⟩
  rw [List.mem_filterMap]
  refine ⟨.login issued raw broken c reply, by simp, ?_⟩
  exact drawn_login haccepts

theorem issued_other {e : AuthEvent} (hdrawn : a.drawn e = none)
    (hout : forall c, e ≠ .loggedOut (some c)) :
    a.Issued (es ++ [e]) c issued <-> a.Issued es c issued := by
  rw [issued_snoc]
  constructor
  · intro h
    rcases h with ⟨hold, _⟩ | ⟨raw, broken, reply, rfl, haccepts⟩
    · exact hold
    · exact absurd (hdrawn.symm.trans (drawn_login haccepts)) nofun
  · intro h
    exact Or.inl ⟨h, hout c⟩

/-!
## The invariant

Every session is one of the history, and every session of the history is there
unless a time has been read at which it had expired.
-/

structure Accounted (a : Auth) (es : List AuthEvent) (sessions : String -> Option Int) :
    Prop where
  issued : forall c exp, sessions c = some exp -> a.Issued es c (exp - a.ttl)
  kept : forall c issued, a.Issued es c issued ->
    sessions c = some (issued + a.ttl) ∨
      sessions c = none ∧ exists now, now ∈ es.filterMap AuthEvent.time ∧ issued + a.ttl < now

variable {sessions : String -> Option Int}

omit [JsonStream] in
theorem time_snoc {e : AuthEvent} {now : Int} (h : now ∈ es.filterMap AuthEvent.time) :
    now ∈ (es ++ [e]).filterMap AuthEvent.time := by
  rw [List.filterMap_append]
  exact List.mem_append_left _ h

theorem accounted_other {e : AuthEvent} (h : Accounted a es sessions)
    (hdrawn : a.drawn e = none) (hout : forall c, e ≠ .loggedOut (some c)) :
    Accounted a (es ++ [e]) sessions := by
  constructor
  · intro c exp hexp
    exact (issued_other hdrawn hout).mpr (h.issued c exp hexp)
  · intro c issued hin
    rcases h.kept c issued ((issued_other hdrawn hout).mp hin) with
      hkept | ⟨hnone, now, hnow, hlt⟩
    · exact Or.inl hkept
    · exact Or.inr ⟨hnone, now, time_snoc hnow, hlt⟩

theorem accounted_expired {e : AuthEvent} {now exp : Int} (h : Accounted a es sessions)
    (hdrawn : a.drawn e = none) (hout : forall c, e ≠ .loggedOut (some c))
    (htime : e.time = some now) (hc : sessions c = some exp) (hexp : exp < now) :
    Accounted a (es ++ [e]) (Function.update sessions c none) := by
  have hother := accounted_other h hdrawn hout
  constructor
  · intro c' exp' hc'
    by_cases hsame : c' = c
    · rw [hsame, Function.update_self] at hc'
      cases hc'
    · rw [Function.update_of_ne hsame] at hc'
      exact hother.issued c' exp' hc'
  · intro c' issued hin
    by_cases hsame : c' = c
    · subst hsame
      rw [Function.update_self]
      refine Or.inr ⟨rfl, now, ?_, ?_⟩
      · rw [List.filterMap_append, List.mem_append, List.mem_filterMap, List.mem_filterMap]
        exact Or.inr ⟨e, List.mem_singleton_self e, htime⟩
      · rcases hother.kept c' issued hin with hkept | ⟨hnone, _⟩
        · rw [hc, Option.some.injEq] at hkept
          rwa [← hkept]
        · rw [hc] at hnone
          cases hnone
    · rw [Function.update_of_ne hsame]
      exact hother.kept c' issued hin

theorem accounted_login {now : Int} {raw : Bytes} {broken : Bool} {tok : String}
    {reply : AuthReply} (h : Accounted a es sessions)
    (haccepts : a.accepts (decodeLoginBody (JsonStream.first raw broken)) = true)
    (hfresh : tok ∉ es.filterMap a.drawn) :
    Accounted a (es ++ [.login now raw broken tok reply])
      (Function.update sessions tok (some (now + a.ttl))) := by
  constructor
  · intro c exp hexp
    rw [issued_snoc]
    by_cases hsame : c = tok
    · rw [hsame, Function.update_self, Option.some.injEq] at hexp
      rw [hsame, ← hexp, Int.add_sub_cancel]
      exact Or.inr ⟨raw, broken, reply, rfl, haccepts⟩
    · rw [Function.update_of_ne hsame] at hexp
      exact Or.inl ⟨h.issued c exp hexp, nofun⟩
  · intro c issued hin
    rcases issued_snoc.mp hin with ⟨hold, _⟩ | ⟨_, _, _, heq, _⟩
    · have hne : c ≠ tok := fun heq => hfresh (heq ▸ drawn_of_issued hold)
      rw [Function.update_of_ne hne]
      rcases h.kept c issued hold with hkept | ⟨hnone, now', hnow, hlt⟩
      · exact Or.inl hkept
      · exact Or.inr ⟨hnone, now', time_snoc hnow, hlt⟩
    · cases heq
      exact Or.inl (Function.update_self _ _ _)

theorem accounted_logout (h : Accounted a es sessions) :
    Accounted a (es ++ [.loggedOut (some c)]) (Function.update sessions c none) := by
  constructor
  · intro c' exp hexp
    by_cases hsame : c' = c
    · rw [hsame, Function.update_self] at hexp
      cases hexp
    · rw [Function.update_of_ne hsame] at hexp
      refine issued_snoc.mpr (Or.inl ⟨h.issued c' exp hexp, ?_⟩)
      intro heq
      cases heq
      exact hsame rfl
  · intro c' issued hin
    rcases issued_snoc.mp hin with ⟨hold, hne⟩ | ⟨_, _, _, heq, _⟩
    · have hother : c' ≠ c := fun heq => hne (by rw [heq])
      rw [Function.update_of_ne hother]
      rcases h.kept c' issued hold with hkept | ⟨hnone, now, hnow, hlt⟩
      · exact Or.inl hkept
      · exact Or.inr ⟨hnone, now, time_snoc hnow, hlt⟩
    · cases heq

/-!
## Steps
-/

inductive Checked (now : Int) (a a' : Auth) : Prop where
  | same : a' = a -> Checked now a a'
  | expired {c : String} {exp : Int} : a.sessions c = some exp -> exp < now ->
      a' = { a with sessions := Function.update a.sessions c none } -> Checked now a a'

omit [JsonStream] in
theorem valid_checked (a : Auth) (now : Int) (cookie : Option String) :
    Checked now a (a.valid now cookie).2 := by
  cases cookie with
  | none => exact .same rfl
  | some c =>
      cases hc : a.sessions c with
      | none =>
          have hsame : (a.valid now (some c)).2 = a := by simp [Auth.valid, hc]
          exact .same hsame
      | some exp =>
          by_cases hexp : exp < now
          · apply Checked.expired hc hexp
            simp [Auth.valid, hc, hexp]
          · apply Checked.same
            simp [Auth.valid, hc, hexp]

omit [JsonStream] in
theorem wrap_checked (a : Auth) (now : Int) (path : Bytes) (cookie : Option String) :
    Checked now a (a.wrap now path cookie).2 := by
  unfold Auth.wrap
  split
  · exact .same rfl
  · exact valid_checked a now cookie

omit [JsonStream] in
theorem me_checked (a : Auth) (now : Int) (cookie : Option String) :
    Checked now a (a.me now cookie).2 := by
  unfold Auth.me
  split
  · exact valid_checked a now cookie
  · exact .same rfl

/-- The panel is configured as `a`, and its sessions are those of the history. -/
def Tracks (a : Auth) (es : List AuthEvent) (p : Panel) : Prop :=
  exists sessions, p.auth = { a with sessions := sessions } ∧ Accounted a es sessions

theorem answers_step {e : AuthEvent} {p p' : Panel} (h : Tracks a es p)
    (hstep : PanelStep p e p') : a.Answers e := by
  intro now raw broken tok reply he
  subst he
  cases hstep
  rcases h with ⟨sessions, hauth, _⟩
  rw [hauth]
  unfold Auth.login Auth.accepts
  split <;> rfl

theorem tracks_checked {e : AuthEvent} {now : Int} {p p' : Panel} (h : Tracks a es p)
    (hdrawn : a.drawn e = none) (hout : forall c, e ≠ .loggedOut (some c))
    (htime : e.time = some now) (hchecked : Checked now p.auth p'.auth) :
    Tracks a (es ++ [e]) p' := by
  rcases h with ⟨sessions, hauth, hsessions⟩
  rw [hauth] at hchecked
  cases hchecked with
  | same hsame => exact ⟨sessions, hsame, accounted_other hsessions hdrawn hout⟩
  | expired hc hexp hafter =>
      exact ⟨_, hafter, accounted_expired hsessions hdrawn hout htime hc hexp⟩

theorem tracks_step {e : AuthEvent} {p p' : Panel} (h : Tracks a es p)
    (hstep : PanelStep p e p') (hfresh : ((es ++ [e]).filterMap a.drawn).Nodup) :
    Tracks a (es ++ [e]) p' := by
  cases hstep with
  | @login now raw broken tok =>
      rcases h with ⟨sessions, hauth, hsessions⟩
      have haccepts : p.auth.accepts = a.accepts := by
        rw [hauth]
        rfl
      unfold Tracks
      dsimp only
      unfold Auth.login
      rw [haccepts]
      cases hok : a.accepts (decodeLoginBody (JsonStream.first raw broken)) with
      | false =>
          refine ⟨sessions, hauth, accounted_other hsessions ?_ nofun⟩
          simp [Auth.drawn, hok]
      | true =>
          rw [List.filterMap_append, List.filterMap_cons_some (drawn_login hok)] at hfresh
          refine ⟨_, ?_, accounted_login hsessions hok ?_⟩
          · rw [hauth]
            rfl
          · intro hold
            exact List.disjoint_of_nodup_append hfresh hold List.mem_cons_self
  | request => exact tracks_checked h rfl nofun rfl (wrap_checked _ _ _ _)
  | me => exact tracks_checked h rfl nofun rfl (me_checked _ _ _)
  | refused _ => exact tracks_checked h rfl nofun rfl (wrap_checked _ _ _ _)
  | logout _ => exact tracks_checked h rfl nofun rfl (wrap_checked _ _ _ _)
  | @loggedOut cookie _ =>
      rcases h with ⟨sessions, hauth, hsessions⟩
      cases cookie with
      | none => exact ⟨sessions, hauth, accounted_other hsessions rfl nofun⟩
      | some c =>
          refine ⟨_, ?_, accounted_logout hsessions⟩
          show (p.auth.logout (some c)).2 = _
          rw [hauth]
          rfl

/-!
## The result
-/

def Panel.started (user pass : String) : Panel where
  auth := newAuth user pass

theorem tracks_run {user pass : String} {p : Panel}
    (hrun : Run PanelStep (Panel.started user pass) es p)
    (htokens : (es.filterMap (newAuth user pass).drawn).Nodup) :
    Tracks (newAuth user pass) es p ∧ forall e, e ∈ es -> (newAuth user pass).Answers e := by
  revert htokens
  apply hrun.invariant (I := fun es p => (es.filterMap (newAuth user pass).drawn).Nodup ->
    Tracks (newAuth user pass) es p ∧ forall e, e ∈ es -> (newAuth user pass).Answers e)
  · intro _
    refine ⟨⟨_, rfl, ?_, ?_⟩, nofun⟩
    · intro c exp hexp
      cases hexp
    · intro c issued hin
      rcases hin with ⟨before, _, _, _, _, hes, _⟩
      simp at hes
  · intro es p e p' _ hbefore hstep htokens
    have hold := htokens
    rw [List.filterMap_append] at hold
    rcases hbefore hold.of_append_left with ⟨htracks, hanswers⟩
    refine ⟨tracks_step htracks hstep htokens, ?_⟩
    exact List.forall_mem_append.mpr
      ⟨hanswers, List.forall_mem_singleton.mpr (answers_step htracks hstep)⟩

omit [JsonStream] in
theorem valid_iff (a : Auth) (now : Int) (cookie : Option String) :
    (a.valid now cookie).1 = true <->
      exists c exp, cookie = some c ∧ a.sessions c = some exp ∧ now ≤ exp := by
  cases cookie with
  | none => simp [Auth.valid]
  | some c =>
      cases hc : a.sessions c with
      | none => simp [Auth.valid, hc]
      | some exp =>
          by_cases hexp : exp < now
          · simp [Auth.valid, hc, hexp]
          · simp [Auth.valid, hc, hexp, Int.not_lt.mp hexp]

/--
A request for a path that is not public is let through exactly if its cookie has
a token that a login issued no longer than `ttl` ago and that no logout has been
served with since.
-/
theorem session_lifecycle {user pass : String} {p : Panel} (henabled : pass ≠ "")
    (hrun : Run PanelStep (Panel.started user pass) es p)
    (htokens : (es.filterMap (newAuth user pass).drawn).Nodup) {now : Int}
    (hclock : forall t, t ∈ es.filterMap AuthEvent.time -> t ≤ now) {path : Bytes}
    (hpath : isPublic path = false) (cookie : Option String) :
    (p.auth.wrap now path cookie).1 = true <->
      exists c issued, cookie = some c ∧ (newAuth user pass).LoggedIn es c issued ∧
        now ≤ issued + (newAuth user pass).ttl := by
  rcases tracks_run hrun htokens with ⟨⟨sessions, hauth, hsessions⟩, hanswers⟩
  have hlogin : forall c issued, (newAuth user pass).LoggedIn es c issued <->
      (newAuth user pass).Issued es c issued :=
    fun c issued => loggedIn_iff (decide_eq_true henabled) hanswers
  have hwrap : (p.auth.wrap now path cookie).1 = (p.auth.valid now cookie).1 := by
    have hasks : (!p.auth.enabled || isPublic path) = false := by
      rw [hauth, hpath]
      simp [newAuth, henabled]
    unfold Auth.wrap
    rw [hasks]
    rfl
  rw [hwrap, valid_iff, hauth]
  simp only [hlogin]
  constructor
  · intro h
    rcases h with ⟨c, exp, hcookie, hexp, hle⟩
    refine ⟨c, _, hcookie, hsessions.issued c exp hexp, ?_⟩
    rwa [Int.sub_add_cancel]
  · intro h
    rcases h with ⟨c, issued, hcookie, hin, hle⟩
    rcases hsessions.kept c issued hin with hkept | ⟨_, t, ht, hlt⟩
    · exact ⟨c, _, hcookie, hkept, hle⟩
    · -- a session that was dropped had expired, and the clock does not go back
      have hnow := hclock t ht
      omega

end Panel

section Sample

def sampleLogin : Json :=
  .obj [("username", .str "admin"), ("password", .str "secret")]

def sampleLoginText : String := "\x7b\"username\":\"admin\",\"password\":\"secret\"\x7d"

theorem sampleLoginText_first :
    decodeFirst (runes (utf8 sampleLoginText)) false = some sampleLogin := by
  have htext : String.ofList sampleLogin.marshal = sampleLoginText := by decide +kernel
  have hread := wholeBody_marshal (writable_strs [("username", "admin"), ("password", "secret")])
  exact htext ▸ hread.right

/-- A request with the token of a login, one second later. -/
theorem session_lifecycle_sample :
    letI := bodyTexts
    exists p reply, Run PanelStep (Panel.started "" "secret")
        [.login 0 (utf8 sampleLoginText) false "t" (.ok reply)] p ∧ reply.value = "t" ∧
      (p.auth.wrap 1000000000 (utf8 "/api/users") (some "t")).1 = true := by
  let := bodyTexts
  have hfirst : JsonStream.first (utf8 sampleLoginText) false = some sampleLogin :=
    sampleLoginText_first
  have haccepts : (newAuth "" "secret").accepts
      (decodeLoginBody (JsonStream.first (utf8 sampleLoginText) false)) = true := by
    rw [hfirst]
    decide +kernel
  have hlogin : PanelStep (Panel.started "" "secret")
      (.login 0 (utf8 sampleLoginText) false "t" _) _ := .login
  have hreply : ((Panel.started "" "secret").auth.login 0 "t"
      (decodeLoginBody (JsonStream.first (utf8 sampleLoginText) false))).1 = _ :=
    congrArg Prod.fst (if_pos haccepts)
  rw [hreply] at hlogin
  have hrun := (Run.refl (Panel.started "" "secret")).snoc hlogin
  refine ⟨_, _, hrun, rfl, ?_⟩
  apply (session_lifecycle (by decide) hrun _ _ (by decide +kernel) (some "t")).mpr
  · exact ⟨"t", 0, rfl, ⟨[], _, false, "t", _, [], rfl, by rw [hfirst]; decide +kernel,
      by rw [hfirst]; decide +kernel, rfl, rfl, List.not_mem_nil⟩, by decide⟩
  · rw [List.nil_append, List.filterMap_cons_some (drawn_login haccepts)]
    exact List.nodup_singleton "t"
  · intro t ht
    rw [List.mem_singleton.mp ht]
    decide

end Sample

end Server
end Telemux
