import Telemux.Telemt.Client

/-!
# Whom a request is about

A patch or a delete names its user in the path, and the username goes into the
URL as it is.  This module says exactly which usernames come out of it again.
-/

namespace Telemux
namespace Telemt

open Interaction Net TelemtSync Sync

def usersPath : Bytes := utf8 "/v1/users/"

theorem usersPath_plain : Plain usersPath where
  no_hash := by decide
  no_question := by decide
  no_percent := by decide

structure Addresses (url : URL) (username : String) : Prop where
  no_query : url.rawQuery = []
  path : url.path = usersPath ++ utf8 username
  one_segment : slash ∉ utf8 username

structure Literal (username : String) : Prop where
  plain : Plain (utf8 username)
  no_slash : slash ∉ utf8 username

theorem utf8_userPath (username : String) :
    utf8 ("/v1/users/" ++ username) = usersPath ++ utf8 username :=
  utf8_append _ _

theorem addresses_iff_literal {url : URL} {username : String}
    (h : Parse (utf8 ("/v1/users/" ++ username)) = .ok url) :
    Addresses url username <-> Literal username := by
  rw [utf8_userPath] at h
  have hverbatim := path_verbatim_iff usersPath_plain h
  constructor
  · intro haddr
    exact ⟨hverbatim.mp ⟨haddr.no_query, haddr.path⟩, haddr.one_segment⟩
  · intro hliteral
    rcases hverbatim.mpr hliteral.plain with ⟨hquery, hpath⟩
    exact ⟨hquery, hpath, hliteral.no_slash⟩

section Requests

variable [JsonText]

def RequestsUser (c : Client) (op : SyncOp) (ifMatch : String) : Prop :=
  (exists err, c.ApplyOp op ifMatch = .done (.error err)) ∨
    exists req next, c.ApplyOp op ifMatch = .call req next ∧ Addresses req.url op.username

theorem mutate_eq (c : Client) (method : Method) (path : String) (body : Option Json)
    (ifMatch : String) :
    (exists err, Parse (utf8 path) = .error err ∧
        c.mutate method path body ifMatch = .done (.error (.request err))) ∨
      (exists req next, Parse (utf8 path) = .ok req.url ∧
        c.mutate method path body ifMatch = .call req next) := by
  unfold Client.mutate Client.newRequest
  cases Parse (utf8 path) with
  | error err => exact Or.inl ⟨err, rfl, rfl⟩
  | ok url => exact Or.inr ⟨_, _, rfl, rfl⟩

theorem applyOp_user (c : Client) {op : SyncOp} (hkind : op.kind ≠ .create)
    (ifMatch : String) :
    exists method body,
      c.ApplyOp op ifMatch = c.mutate method ("/v1/users/" ++ op.username) body ifMatch := by
  unfold Client.ApplyOp
  cases hop : op.kind with
  | create => exact absurd hop hkind
  | patch => exact ⟨_, _, rfl⟩
  | delete => exact ⟨_, _, rfl⟩

theorem requestsUser_iff (c : Client) {op : SyncOp} (hkind : op.kind ≠ .create)
    (ifMatch : String) :
    RequestsUser c op ifMatch <-> Refused (utf8 op.username) ∨ Literal op.username := by
  have hrefused := refused_append usersPath_plain (by decide) (utf8 op.username)
  rw [← utf8_userPath] at hrefused
  rcases applyOp_user c hkind ifMatch with ⟨method, body, hop⟩
  unfold RequestsUser
  rw [hop]
  rcases mutate_eq c method ("/v1/users/" ++ op.username) body ifMatch with
    ⟨err, herr, hdone⟩ | ⟨req, next, hok, hcall⟩
  · have hnot : Refused (utf8 op.username) := by
      rw [← hrefused]
      by_contra hparses
      rcases (Parse_ok_iff _).mpr hparses with ⟨url, hurl⟩
      rw [herr] at hurl
      cases hurl
    exact ⟨fun _ => Or.inl hnot, fun _ => Or.inl ⟨_, hdone⟩⟩
  · have hparses : ¬ Refused (utf8 op.username) := by
      rw [← hrefused]
      exact (Parse_ok_iff _).mp ⟨_, hok⟩
    rw [hcall, ← addresses_iff_literal hok]
    constructor
    · intro hrequest
      rcases hrequest with ⟨err, hdone⟩ | ⟨req', next', hcall', haddr⟩
      · cases hdone
      · cases hcall'
        exact Or.inr haddr
    · intro hcond
      rcases hcond with hnot | haddr
      · exact absurd hnot hparses
      · exact Or.inr ⟨_, _, rfl, haddr⟩

/--
A patch or delete is about its user, or is not sent, exactly when its username
is refused or literal; and then requests for different users differ.
-/
theorem applyOp_addresses_iff (c : Client) :
    (forall op ifMatch, op.kind ≠ .create ->
      (RequestsUser c op ifMatch <-> Refused (utf8 op.username) ∨ Literal op.username)) ∧
    (forall op op' ifMatch ifMatch' req req' next next',
      op.kind ≠ .create -> op'.kind ≠ .create ->
      Refused (utf8 op.username) ∨ Literal op.username ->
      Refused (utf8 op'.username) ∨ Literal op'.username ->
      c.ApplyOp op ifMatch = .call req next -> c.ApplyOp op' ifMatch' = .call req' next' ->
      req.url.path = req'.url.path -> op.username = op'.username) := by
  have hpath : forall {op ifMatch req next}, op.kind ≠ .create ->
      Refused (utf8 op.username) ∨ Literal op.username ->
      c.ApplyOp op ifMatch = .call req next ->
      req.url.path = usersPath ++ utf8 op.username := by
    intro op ifMatch req next hkind hcond hcall
    rcases (requestsUser_iff c hkind ifMatch).mpr hcond with
      ⟨err, hdone⟩ | ⟨req', next', hcall', haddr⟩
    · rw [hcall] at hdone
      cases hdone
    · rw [hcall] at hcall'
      cases hcall'
      exact haddr.path
  constructor
  · intro op ifMatch hkind
    exact requestsUser_iff c hkind ifMatch
  · intro op op' ifMatch ifMatch' req req' next next' hkind hkind' hcond hcond' hcall hcall'
      hsame
    rw [hpath hkind hcond hcall, hpath hkind' hcond' hcall'] at hsame
    exact utf8_injective (List.append_cancel_left hsame)

end Requests

theorem applyOp_addresses_iff_sample :
    letI := sampleText
    RequestsUser { BaseURL := "http://127.0.0.1:9091" } (deleteOp "sub_1") "r1" :=
  letI := sampleText
  ((applyOp_addresses_iff { BaseURL := "http://127.0.0.1:9091" }).left (deleteOp "sub_1") "r1"
    (by decide)).mpr (Or.inr ⟨⟨by decide, by decide, by decide⟩, by decide⟩)

/-- A delete of one username that is sent as a delete of another. -/
theorem applyOp_addresses_other :
    letI := sampleText
    let c : Client := { BaseURL := "http://127.0.0.1:9091" }
    ¬ RequestsUser c (deleteOp "sub_1#x") "r1" ∧
      exists req next, c.ApplyOp (deleteOp "sub_1#x") "r1" = .call req next ∧
        req.method = .DELETE ∧ Addresses req.url "sub_1" :=
  letI := sampleText
  ⟨fun h => ((requestsUser_iff _ (by decide) "r1").mp h).elim (by decide)
      fun hliteral => hliteral.plain.no_hash (by decide),
    _, _, rfl, rfl, ⟨rfl, rfl, by decide⟩⟩

end Telemt
end Telemux
