import Mathlib.Data.List.Forall2
import Telemux.Net.JsonWhole
import Telemux.Server.Cutoff
import Telemux.Server.Expiration
import Telemux.Time.Spelling

/-!
# What a renewal changes

`POST /api/users/{username}/renew` sets the expiration of a user, or clears it.
The decoder leaves the pointer nil for a body that does not name the field, and
nil is also what clears the expiration.
-/

namespace Telemux
namespace Server

open Interaction Net Store Sync TelemtSync Time

attribute [local instance] bodyTexts goTimeJSON

/-!
## Members of an object
-/

/-- The value of the last member whose name `p` accepts. -/
def lastNamed (p : String -> Bool) (members : List (String × Json)) : Option Json :=
  ((members.filter fun member => p member.1).getLast?).map Prod.snd

theorem lastNamed_cons (p : String -> Bool) (member : String × Json)
    (members : List (String × Json)) :
    lastNamed p (member :: members) =
      (lastNamed p members).or (if p member.1 = true then some member.2 else none) := by
  unfold lastNamed
  rw [List.filter_cons]
  split
  · rw [List.getLast?_cons]
    cases (members.filter fun member => p member.1).getLast? with
    | none => rfl
    | some last => rfl
  · rw [Option.or_none]

theorem lastNamed_mem {p : String -> Bool} {members : List (String × Json)} {v : Json}
    (h : lastNamed p members = some v) :
    exists member, member ∈ members ∧ p member.1 = true ∧ member.2 = v := by
  rcases Option.map_eq_some_iff.mp h with ⟨member, hlast, hv⟩
  have hmem := List.mem_filter.mp (List.mem_of_getLast? hlast)
  exact ⟨member, hmem.left, hmem.right, hv⟩

theorem lastNamed_field {tag : String} {members : List (String × Json)} {v : Json}
    (h : lastNamed (fun name => decide (name = tag)) members = some v) :
    exists v', lastNamed (isField tag) members = some v' := by
  rcases lastNamed_mem h with ⟨member, hmember, hname, _⟩
  have hfield : isField tag member.1 = true := by
    rw [of_decide_eq_true hname, isField, decide_eq_true rfl]
  cases hlast : lastNamed (isField tag) members with
  | some v' => exact ⟨v', rfl⟩
  | none =>
      rw [lastNamed, Option.map_eq_none_iff, List.getLast?_eq_none_iff,
        List.filter_eq_nil_iff] at hlast
      exact absurd hfield (hlast member hmember)

/-!
## What a body asks for

Absent is a refusal, and `some none` asks to clear the expiration.
-/

inductive Requested (leap : Int -> Bool) : Json -> Option Rat -> Prop where
  | null : Requested leap .null none
  | str {s : String} {sp : Spelling} : Spells s sp -> sp.ByRFC leap ->
      Requested leap (.str s) (some sp.instant)
  | escaped {s : String} {sp : Spelling} : Spells s sp -> sp.ByRFC leap ->
      Requested leap (.escaped s) (some sp.instant)

section Asked

variable (leap : Int -> Bool)

def askedMember : Json -> Option (Option Rat)
  | .null => some none
  | .str s => (rfc3339 leap s).map some
  | .escaped s => (rfc3339 leap s).map some
  | _ => none

/-- An object says it in its last member of that name; nothing else asks for anything. -/
def asked : Option Json -> Option (Option Rat)
  | some (.obj members) =>
      (lastNamed (fun name => decide (name = "expiration_at")) members).bind (askedMember leap)
  | _ => none

theorem asked_obj (members : List (String × Json)) :
    asked leap (some (.obj members)) =
      (lastNamed (fun name => decide (name = "expiration_at")) members).bind
        (askedMember leap) :=
  rfl

variable {leap}

theorem askedMember_iff {v : Json} {e : Option Rat} :
    askedMember leap v = some e <-> Requested leap v e := by
  constructor
  · intro h
    cases v with
    | null =>
        cases h
        exact .null
    | str s =>
        rcases Option.map_eq_some_iff.mp h with ⟨q, hq, rfl⟩
        rcases rfc3339_iff.mp hq with ⟨sp, hsp, hrfc, rfl⟩
        exact .str hsp hrfc
    | escaped s =>
        rcases Option.map_eq_some_iff.mp h with ⟨q, hq, rfl⟩
        rcases rfc3339_iff.mp hq with ⟨sp, hsp, hrfc, rfl⟩
        exact .escaped hsp hrfc
    | _ => cases h
  · intro h
    cases h with
    | null => rfl
    | str hsp hrfc => exact Option.map_eq_some_iff.mpr ⟨_, rfc3339_iff.mpr ⟨_, hsp, hrfc, rfl⟩, rfl⟩
    | escaped hsp hrfc =>
        exact Option.map_eq_some_iff.mpr ⟨_, rfc3339_iff.mpr ⟨_, hsp, hrfc, rfl⟩, rfl⟩

theorem askedMember_none {v : Json} :
    askedMember leap v = none <-> forall e, ¬ Requested leap v e := by
  rw [Option.eq_none_iff_forall_ne_some]
  exact forall_congr' fun e => not_congr askedMember_iff

end Asked

/-!
## How the handler reads it
-/

/-- A value spells an instant for package `time`, or clears the field. -/
inductive Spelled : Json -> Option Rat -> Prop where
  | null : Spelled .null none
  | str {s : String} {sp : Spelling} : Spells s sp -> sp.ByTime ->
      Spelled (.str s) (some sp.instant)

theorem decoded_iff {v : Json} {exp : Option Int} :
    decodePointer decodeTime v = some exp <->
      exists e, Spelled v e ∧ exp = e.map fun q => ⌊q⌋ := by
  constructor
  · intro h
    cases v with
    | null =>
        cases h
        exact ⟨none, .null, rfl⟩
    | str s =>
        rcases Option.map_eq_some_iff.mp h with ⟨t, ht, rfl⟩
        rcases parse_iff.mp ht with ⟨sp, hsp, htime, rfl⟩
        exact ⟨some sp.instant, .str hsp htime, rfl⟩
    | _ => cases h
  · intro h
    rcases h with ⟨e, hspelled, rfl⟩
    cases hspelled with
    | null => rfl
    | str hsp htime =>
        exact Option.map_eq_some_iff.mpr ⟨_, parse_iff.mpr ⟨_, hsp, htime, rfl⟩, rfl⟩

theorem decoded_none {v : Json} :
    decodePointer decodeTime v = none <-> forall e, ¬ Spelled v e := by
  constructor
  · intro hnone e hspelled
    rw [decoded_iff.mpr ⟨e, hspelled, rfl⟩] at hnone
    cases hnone
  · intro hno
    cases hdecoded : decodePointer decodeTime v with
    | none => rfl
    | some exp =>
        rcases decoded_iff.mp hdecoded with ⟨e, hspelled, _⟩
        exact absurd hspelled (hno e)

def RefusedMember (members : List (String × Json)) : Prop :=
  exists member, member ∈ members ∧ isField "expiration_at" member.1 = true ∧
    forall e, ¬ Spelled member.2 e

def RefusedBody : Json -> Prop
  | .null => False
  | .obj members => RefusedMember members
  | _ => True

def decodeMember (exp : Option Int) (member : String × Json) : Option (Option Int) :=
  if isField "expiration_at" member.1 then decodePointer decodeTime member.2 else some exp

theorem decodeRenewBody_obj (members : List (String × Json)) :
    decodeRenewBody (.obj members) = members.foldlM decodeMember none := rfl

theorem foldlM_refused {members : List (String × Json)} (h : RefusedMember members)
    (exp : Option Int) : members.foldlM decodeMember exp = none := by
  induction members generalizing exp with
  | nil =>
      rcases h with ⟨member, hmember, _⟩
      cases hmember
  | cons first rest ih =>
      rw [List.foldlM_cons]
      rcases h with ⟨member, hmember, hfield, hbad⟩
      rcases List.mem_cons.mp hmember with rfl | hrest
      · unfold decodeMember
        rw [if_pos hfield, decoded_none.mpr hbad]
        rfl
      · cases decodeMember exp first with
        | none => rfl
        | some exp' => exact ih ⟨member, hrest, hfield, hbad⟩ exp'

theorem foldlM_taken {members : List (String × Json)} (h : ¬ RefusedMember members)
    (exp : Option Int) :
    members.foldlM decodeMember exp =
      match lastNamed (isField "expiration_at") members with
      | none => some exp
      | some v => decodePointer decodeTime v := by
  induction members generalizing exp with
  | nil => rfl
  | cons first rest ih =>
      have hrest : ¬ RefusedMember rest := by
        intro hrefused
        rcases hrefused with ⟨member, hmember, hbad⟩
        exact h ⟨member, List.mem_cons_of_mem first hmember, hbad⟩
      rw [List.foldlM_cons, lastNamed_cons]
      by_cases hfield : isField "expiration_at" first.1 = true
      · cases hvalue : decodePointer decodeTime first.2 with
        | none => exact absurd ⟨first, List.mem_cons_self, hfield, decoded_none.mp hvalue⟩ h
        | some exp' =>
            have hstep : decodeMember exp first = some exp' := by
              unfold decodeMember
              rw [if_pos hfield, hvalue]
            rw [hstep, if_pos hfield]
            show rest.foldlM decodeMember exp' = _
            rw [ih hrest]
            cases lastNamed (isField "expiration_at") rest with
            | none => exact hvalue.symm
            | some v => rfl
      · have hstep : decodeMember exp first = some exp := by
          unfold decodeMember
          rw [if_neg hfield]
        rw [hstep, if_neg hfield, Option.or_none]
        exact ih hrest exp

theorem decodeRenewBody_none {v : Json} : decodeRenewBody v = none <-> RefusedBody v := by
  cases v with
  | null => exact ⟨nofun, fun h => nomatch h⟩
  | obj members =>
      show members.foldlM decodeMember none = none <-> RefusedMember members
      by_cases hrefused : RefusedMember members
      · exact ⟨fun _ => hrefused, fun _ => foldlM_refused hrefused none⟩
      · refine ⟨fun hnone => ?_, fun h => absurd h hrefused⟩
        rw [foldlM_taken hrefused] at hnone
        cases hlast : lastNamed (isField "expiration_at") members with
        | none =>
            rw [hlast] at hnone
            cases hnone
        | some v =>
            rw [hlast] at hnone
            rcases lastNamed_mem hlast with ⟨member, hmember, hfield, rfl⟩
            exact ⟨member, hmember, hfield, decoded_none.mp hnone⟩
  | _ => exact ⟨fun _ => trivial, fun _ => rfl⟩

/-!
## When it reads what is asked
-/

def microseconds (q : Rat) : Rat :=
  ((⌊q / 1000⌋ * 1000 : Int) : Rat)

theorem timestamptz_floor (q : Rat) : ((timestamptz ⌊q⌋ : Int) : Rat) = microseconds q := by
  have hfloor := Int.floor_div_natCast q 1000
  unfold microseconds timestamptz
  rw [show (1000 : Rat) = ((1000 : Nat) : Rat) from rfl, hfloor]
  rfl

def exactly (exp : Option Int) : Option Rat :=
  exp.map Int.cast

theorem other_before (e : Option Rat) :
    exists before, exactly before ≠ e := by
  cases e with
  | none => exact ⟨some 0, nofun⟩
  | some q => exact ⟨none, nofun⟩

/-- What is stored for what was decoded. -/
def stored (exp : Option Int) : Option Rat :=
  exactly (exp.map timestamptz)

theorem stored_floor (e : Option Rat) : stored (e.map fun q => ⌊q⌋) = e.map microseconds := by
  cases e with
  | none => rfl
  | some q => exact congrArg some (timestamptz_floor q)

def PlainBody (leap : Int -> Bool) : Json -> Prop
  | .null => False
  | .obj members =>
      (RefusedMember members ∧
        forall v, lastNamed (fun name => decide (name = "expiration_at")) members = some v ->
          forall e, ¬ Requested leap v e) ∨
      (¬ RefusedMember members ∧ exists v v' e,
        lastNamed (fun name => decide (name = "expiration_at")) members = some v ∧
        lastNamed (isField "expiration_at") members = some v' ∧
        Spelled v' e ∧ Requested leap v (e.map microseconds))
  | _ => True

/-- How a body is read that is, or is not, JSON as a whole. -/
structure ReadAsAsked (leap : Int -> Bool) (raw : Bytes) : Prop where
  plain : forall v, decodeFirst (runes raw) false = some v -> wholeBody raw = some v ->
    PlainBody leap v
  junk : forall v, decodeFirst (runes raw) false = some v -> wholeBody raw = none ->
    RefusedBody v
  /-- Nothing can be read, or only from a body that is nested too deeply. -/
  unread : decodeFirst (runes raw) false = none -> asked leap (wholeBody raw) = none

theorem stored_refused {leap : Int -> Bool} {members : List (String × Json)}
    (h : RefusedMember members) :
    (decodeRenewBody (.obj members)).map stored = asked leap (some (.obj members)) <->
      PlainBody leap (.obj members) := by
  rw [decodeRenewBody_none.mpr (show RefusedBody (.obj members) from h), Option.map_none,
    eq_comm, asked_obj, Option.bind_eq_none_iff]
  constructor
  · intro hnone
    exact .inl ⟨h, fun v hv => askedMember_none.mp (hnone v hv)⟩
  · intro hplain v hv
    rcases hplain with ⟨_, hno⟩ | ⟨htaken, _⟩
    · exact askedMember_none.mpr (hno v hv)
    · exact absurd h htaken

theorem stored_taken {leap : Int -> Bool} {members : List (String × Json)}
    (h : ¬ RefusedMember members) :
    (decodeRenewBody (.obj members)).map stored = asked leap (some (.obj members)) <->
      PlainBody leap (.obj members) := by
  rw [asked_obj, decodeRenewBody_obj, foldlM_taken h]
  constructor
  · intro hsame
    right
    refine ⟨h, ?_⟩
    cases hexact : lastNamed (fun name => decide (name = "expiration_at")) members with
    | none =>
        rw [hexact, Option.bind_none, Option.map_eq_none_iff] at hsame
        cases hfolded : lastNamed (isField "expiration_at") members with
        | none =>
            rw [hfolded] at hsame
            cases hsame
        | some v' =>
            rw [hfolded] at hsame
            rcases lastNamed_mem hfolded with ⟨member, hmember, hfield, rfl⟩
            exact absurd ⟨member, hmember, hfield, decoded_none.mp hsame⟩ h
    | some v =>
        rcases lastNamed_field hexact with ⟨v', hfolded⟩
        rw [hexact, hfolded, Option.bind_some] at hsame
        dsimp only at hsame
        cases hdecoded : decodePointer decodeTime v' with
        | none =>
            rcases lastNamed_mem hfolded with ⟨member, hmember, hfield, rfl⟩
            exact absurd ⟨member, hmember, hfield, decoded_none.mp hdecoded⟩ h
        | some exp =>
            rcases decoded_iff.mp hdecoded with ⟨e, hspelled, rfl⟩
            rw [hdecoded, Option.map_some, stored_floor] at hsame
            exact ⟨v, v', e, rfl, hfolded, hspelled, askedMember_iff.mp hsame.symm⟩
  · intro hplain
    rcases hplain with ⟨hbad, _⟩ | ⟨_, v, v', e, hv, hv', hspelled, hrequested⟩
    · exact absurd hbad h
    · rw [hv, hv', Option.bind_some, askedMember_iff.mpr hrequested]
      dsimp only
      rw [decoded_iff.mpr ⟨e, hspelled, rfl⟩, Option.map_some, stored_floor]

theorem stored_eq_asked {leap : Int -> Bool} (v : Json) :
    (decodeRenewBody v).map stored = asked leap (some v) <-> PlainBody leap v := by
  cases v with
  | null => exact ⟨nofun, fun h => nomatch h⟩
  | obj members =>
      by_cases hrefused : RefusedMember members
      · exact stored_refused hrefused
      · exact stored_taken hrefused
  | _ => exact ⟨fun _ => trivial, fun _ => rfl⟩

def storedFor (raw : Bytes) : Option (Option Rat) :=
  ((JsonStream.first raw false).bind decodeRenewBody).map stored

theorem storedFor_eq_asked {leap : Int -> Bool} (raw : Bytes) :
    storedFor raw = asked leap (wholeBody raw) <-> ReadAsAsked leap raw := by
  unfold storedFor
  change ((decodeFirst (runes raw) false).bind decodeRenewBody).map stored = _ <-> _
  cases hfirst : decodeFirst (runes raw) false with
  | none =>
      constructor
      · intro hsame
        refine ⟨?_, ?_, fun _ => hsame.symm⟩
        · intro v hv
          rw [hfirst] at hv
          cases hv
        · intro v hv
          rw [hfirst] at hv
          cases hv
      · intro h
        exact (h.unread hfirst).symm
  | some v =>
      rw [Option.bind_some]
      cases hwhole : wholeBody raw with
      | some w =>
          rw [wholeBody_first hwhole hfirst, stored_eq_asked]
          constructor
          · intro hplain
            refine ⟨?_, ?_, ?_⟩
            · intro v' hv' _
              rw [hfirst] at hv'
              cases hv'
              exact hplain
            · intro v' _ hnone
              rw [hwhole] at hnone
              cases hnone
            · intro hnone
              rw [hfirst] at hnone
              cases hnone
          · intro h
            exact h.plain v hfirst (wholeBody_first hwhole hfirst ▸ hwhole)
      | none =>
          rw [show asked leap none = none from rfl, Option.map_eq_none_iff, decodeRenewBody_none]
          constructor
          · intro hrefused
            refine ⟨?_, ?_, ?_⟩
            · intro v' _ hsome
              rw [hwhole] at hsome
              cases hsome
            · intro v' hv' _
              rw [hfirst] at hv'
              cases hv'
              exact hrefused
            · intro hnone
              rw [hfirst] at hnone
              cases hnone
          · intro h
            exact h.junk v hfirst hwhole

/-!
## Runs of the handler

The handler runs on a master, and the database answers its statements.
-/

section Runs

variable {ε : Type} [RFC3339] [Collation]

abbrev ServerEvent (ε : Type) := Event (ServerCall ε) (ServerReply ε)

def fromMaster (s : Shared ε) : (c : ServerCall ε) -> ServerReply ε c -> Shared ε -> Prop
  | .IsInRecovery, r, s' => r = .ok false ∧ s' = s
  | .SetExpiration username exp, r, s' =>
      (exists changed, r = .ok changed) ∧
        s.answers (.SetExpiration username (exp.map timestamptz)) r s'
  | c, r, s' => s.answers c r s'

def master (ε : Type) : Contract (ServerCall ε) (ServerReply ε) (Shared ε) where
  owes _ _ := True
  answers := fromMaster

def response : ServerEvent ε -> Option (Response ε)
  | ⟨.Respond resp, _⟩ => some resp
  | _ => none

def responses (t : List (ServerEvent ε)) : List (Response ε) :=
  t.filterMap response

def Signals (t : List (ServerEvent ε)) : Prop :=
  exists e, e ∈ t ∧ e.call = .markDirty

def renewRow (username : String) (exp : Option Int) (u : User) : User :=
  if u.username = username then { u with expirationAt := exp } else u

omit [RFC3339] [Collation] in
theorem setExpiration_rows (t : UsersTable) (username : String) (exp : Option Int)
    {changed : Bool} (h : (SetExpiration t username exp).1 = changed) :
    (if changed then (SetExpiration t username exp).2 else t).rows =
      t.rows.map (renewRow username exp) := by
  cases changed with
  | true => rfl
  | false =>
      have hnone : t.rowsAffected username = 0 := by
        have hle := rowsAffected_le_one t username
        have hne := of_decide_eq_false h
        omega
      have hrows := List.filter_eq_nil_iff.mp (List.length_eq_zero_iff.mp hnone)
      have hsame : t.rows.map (renewRow username exp) = t.rows.map id := by
        apply List.map_congr_left
        intro u hu
        exact if_neg fun hname => hrows u hu (decide_eq_true hname)
      rw [hsame, List.map_id]
      rfl

theorem answered_respond {code : Nat} {body : ResponseBody ε} {s s' : Shared ε}
    {t : List (ServerEvent ε)} (hrun : Program.Runs (respond code body) t ())
    (hans : (master ε).Answered s t s') : t = [⟨.Respond ⟨code, body⟩, ()⟩] ∧ s' = s := by
  cases hrun with
  | call hdone =>
      cases hdone
      cases hans with
      | cons hstep hnil =>
          cases hnil
          exact ⟨rfl, hstep⟩

theorem answered_changed {changed : Bool} {s s' : Shared ε} {t : List (ServerEvent ε)}
    (hrun : Program.Runs (answerChanged (.ok changed)) t ())
    (hans : (master ε).Answered s t s') : s'.table = s.table := by
  cases changed with
  | false =>
      rcases answered_respond hrun hans with ⟨rfl, rfl⟩
      rfl
  | true =>
      cases hrun with
      | call hrest =>
          cases hans with
          | cons hstep hans' =>
              rcases answered_respond hrest hans' with ⟨rfl, rfl⟩
              have hmark : s' = { s with dirty := true } := hstep
              subst hmark
              rfl

theorem renew_run {username : String} {raw : Bytes} {s s' : Shared ε}
    {t : List (ServerEvent ε)} (hrun : Program.Runs (handleRenew username raw false) t ())
    (hans : (master ε).Answered s t s') :
    ((JsonStream.first raw false).bind decodeRenewBody = none ->
      responses t = [⟨400, .error .needsExpiration⟩] ∧ s' = s ∧ ¬ Signals t) ∧
    forall exp, (JsonStream.first raw false).bind decodeRenewBody = some exp ->
      s'.table.rows = s.table.rows.map (renewRow username (exp.map timestamptz)) := by
  cases hrun with
  | call hrest =>
      cases hans with
      | cons hstep hans' =>
          rcases hstep with ⟨hmaster, hsame⟩
          cases hmaster
          cases hsame
          constructor
          · intro hnone
            simp only [hnone] at hrest
            rcases answered_respond hrest hans' with ⟨rfl, rfl⟩
            refine ⟨rfl, rfl, ?_⟩
            intro hsignal
            rcases hsignal with ⟨e, he, hmark⟩
            simp only [List.mem_cons, List.not_mem_nil, or_false] at he
            rcases he with rfl | rfl
            · cases hmark
            · cases hmark
          · intro exp hexp
            simp only [hexp] at hrest
            cases hrest with
            | call hlast =>
                cases hans' with
                | cons hstep' hans'' =>
                    rcases hstep' with ⟨⟨changed, rfl⟩, hresult, hstate⟩
                    rw [answered_changed hlast hans'', hstate,
                      ← setExpiration_rows s.table username (exp.map timestamptz) hresult]
                    cases changed with
                    | true => rfl
                    | false => rfl

theorem answered_one (c : ServerCall ε) (r : ServerReply ε c)
    {next : ServerReply ε c -> Handler ε} {s s₁ s' : Shared ε} (hans : fromMaster s c r s₁)
    (hrest : exists t, Program.Runs (next r) t () ∧ (master ε).Answered s₁ t s') :
    exists t, Program.Runs (.call c next) t () ∧ (master ε).Answered s t s' := by
  rcases hrest with ⟨t, hrun, hans'⟩
  exact ⟨⟨c, r⟩ :: t, .call hrun, .cons hans hans'⟩

theorem respond_can_run (code : Nat) (body : ResponseBody ε) (s : Shared ε) :
    exists t, Program.Runs (respond code body) t () ∧ (master ε).Answered s t s :=
  answered_one (.Respond ⟨code, body⟩) () rfl ⟨[], .refl _, .nil s⟩

theorem renew_can_run (username : String) (raw : Bytes) (s : Shared ε) :
    exists s' t, Program.Runs (handleRenew username raw false) t () ∧
      (master ε).Answered s t s' := by
  cases hdecoded : (JsonStream.first raw false).bind decodeRenewBody with
  | none =>
      refine ⟨s, answered_one .IsInRecovery (.ok false) ⟨rfl, rfl⟩ ?_⟩
      simp only [hdecoded]
      exact respond_can_run _ _ s
  | some exp =>
      cases hresult : (SetExpiration s.table username (exp.map timestamptz)).1 with
      | false =>
          refine ⟨s, answered_one .IsInRecovery (.ok false) ⟨rfl, rfl⟩ ?_⟩
          simp only [hdecoded]
          exact answered_one (.SetExpiration username exp) (.ok false)
            ⟨⟨false, rfl⟩, hresult, rfl⟩ (respond_can_run _ _ s)
      | true =>
          let table := (SetExpiration s.table username (exp.map timestamptz)).2
          refine ⟨{ s.commit table with dirty := true },
            answered_one .IsInRecovery (.ok false) ⟨rfl, rfl⟩ ?_⟩
          simp only [hdecoded]
          exact answered_one (.SetExpiration username exp) (.ok true) ⟨⟨true, rfl⟩, hresult, rfl⟩
            (answered_one .markDirty () rfl (respond_can_run _ _ _))

/-- What a renewal is to do for the user `username`, when the body asks for `ask`. -/
structure RenewedAs (username : String) (ask : Option (Option Rat)) (t : List (ServerEvent ε))
    (s s' : Shared ε) : Prop where
  renewed : forall e, ask = some e -> forall u, u ∈ s.table.rows -> u.username = username ->
    exists exp, exactly exp = e ∧ { u with expirationAt := exp } ∈ s'.table.rows
  refused : ask = none ->
    responses t = [⟨400, .error .needsExpiration⟩] ∧ s' = s ∧ ¬ Signals t
  others : List.Forall₂
    (fun u u' => u' = { u with expirationAt := u'.expirationAt } ∧
      (u.username ≠ username -> u' = u))
    s.table.rows s'.table.rows

omit [RFC3339] [Collation] in
theorem renewRow_others (username : String) (exp : Option Int) (rows : List User) :
    List.Forall₂
      (fun u u' => u' = { u with expirationAt := u'.expirationAt } ∧
        (u.username ≠ username -> u' = u))
      rows (rows.map (renewRow username exp)) := by
  rw [List.forall₂_map_right_iff, List.forall₂_same]
  intro u _
  unfold renewRow
  split
  · rename_i hname
    exact ⟨rfl, fun hne => absurd hname hne⟩
  · exact ⟨rfl, fun _ => rfl⟩

theorem renew_does {username : String} {raw : Bytes} {s s' : Shared ε}
    {t : List (ServerEvent ε)} (hrun : Program.Runs (handleRenew username raw false) t ())
    (hans : (master ε).Answered s t s') : RenewedAs username (storedFor raw) t s s' := by
  have hdone := renew_run hrun hans
  unfold storedFor
  cases hdecoded : (JsonStream.first raw false).bind decodeRenewBody with
  | none =>
      rcases hdone.left hdecoded with ⟨hresponses, rfl, hsignal⟩
      constructor
      · exact nofun
      · exact fun _ => ⟨hresponses, rfl, hsignal⟩
      · rw [List.forall₂_same]
        exact fun _ _ => ⟨rfl, fun _ => rfl⟩
  | some exp =>
      have hrows := hdone.right exp hdecoded
      constructor
      · intro e he u hu hname
        cases he
        refine ⟨exp.map timestamptz, rfl, ?_⟩
        rw [hrows]
        exact List.mem_map.mpr ⟨u, hu, if_pos hname⟩
      · exact nofun
      · rw [hrows]
        exact renewRow_others username _ _

def oneUser (username : String) (exp : Option Int) : Shared ε where
  table := ⟨[⟨username, "", exp, none, true, 0⟩], List.nodup_singleton _⟩

omit [RFC3339] [Collation] in
theorem before_of_refused {username : String} {before : Option Int} {e : Option Rat}
    {t : List (ServerEvent ε)} {s' : Shared ε}
    (hrefused : RenewedAs username none t (oneUser username before) s')
    (hrenewed : RenewedAs username (some e) t (oneUser username before) s') :
    exactly before = e := by
  rcases hrenewed.renewed e rfl _ List.mem_cons_self rfl with ⟨exp, rfl, hmem⟩
  rw [(hrefused.refused rfl).right.left] at hmem
  exact congrArg exactly (congrArg User.expirationAt (List.mem_singleton.mp hmem)).symm

omit [RFC3339] [Collation] in
theorem renewed_once {username : String} {before : Option Int} {e e' : Option Rat}
    {t : List (ServerEvent ε)} {s' : Shared ε}
    (h : RenewedAs username (some e) t (oneUser username before) s')
    (h' : RenewedAs username (some e') t (oneUser username before) s') : e = e' := by
  rcases h.renewed e rfl _ List.mem_cons_self rfl with ⟨exp, rfl, hmem⟩
  rcases h'.renewed e' rfl _ List.mem_cons_self rfl with ⟨exp', rfl, hmem'⟩
  rcases List.length_eq_one_iff.mp h.others.length_eq.symm with ⟨row, hrow⟩
  rw [hrow, List.mem_singleton] at hmem hmem'
  exact congrArg exactly (congrArg User.expirationAt (hmem.trans hmem'.symm))

omit [RFC3339] [Collation] in
theorem asks_eq {username : String} {ask ask' : Option (Option Rat)}
    (hall : forall before, exists (s' : Shared ε) (t : List (ServerEvent ε)),
      RenewedAs username ask t (oneUser username before) s' ∧
        RenewedAs username ask' t (oneUser username before) s') : ask = ask' := by
  cases ask with
  | none =>
      cases ask' with
      | none => rfl
      | some e' =>
          rcases other_before e' with ⟨before, hbefore⟩
          rcases hall before with ⟨s', t, hrefused, hrenewed⟩
          exact absurd (before_of_refused hrefused hrenewed) hbefore
  | some e =>
      cases ask' with
      | none =>
          rcases other_before e with ⟨before, hbefore⟩
          rcases hall before with ⟨s', t, hrenewed, hrefused⟩
          exact absurd (before_of_refused hrefused hrenewed) hbefore
      | some e' =>
          rcases hall none with ⟨s', t, h, h'⟩
          exact congrArg some (renewed_once h h')

/--
A renewal does what its body asks for, in every state, exactly if the body is read
as what it asks for.
-/
theorem renewed_as_asked_iff (leap : Int -> Bool) (username : String) (raw : Bytes) :
    (forall (s s' : Shared ε) (t : List (ServerEvent ε)),
      Program.Runs (handleRenew username raw false) t () -> (master ε).Answered s t s' ->
      RenewedAs username (asked leap (wholeBody raw)) t s s') <->
    ReadAsAsked leap raw := by
  rw [← storedFor_eq_asked]
  constructor
  · intro hall
    apply asks_eq
    intro before
    rcases renew_can_run username raw (oneUser username before : Shared ε) with
      ⟨s', t, hrun, hans⟩
    exact ⟨s', t, renew_does hrun hans, hall _ s' t hrun hans⟩
  · intro heq s s' t hrun hans
    rw [← heq]
    exact renew_does hrun hans

end Runs

section Sample

/-- An object without the field clears the expiration. -/
theorem renewed_by_empty_object :
    letI := goTime
    letI := sampleCollation
    ¬ forall (s s' : Shared Classification) (t : List (ServerEvent Classification)),
      Program.Runs (handleRenew "sub_a" (utf8 "\x7b\x7d") false) t () ->
      (master Classification).Answered s t s' ->
      RenewedAs "sub_a" (asked (fun _ => false) (wholeBody (utf8 "\x7b\x7d"))) t s s' := by
  let := goTime
  let := sampleCollation
  have hread := wholeBody_marshal (v := .obj []) (.obj nofun)
  have htext : String.ofList (Json.obj []).marshal = "\x7b\x7d" := rfl
  rw [htext] at hread
  intro hall
  rcases renew_can_run "sub_a" (utf8 "\x7b\x7d")
    (oneUser "sub_a" (some 0) : Shared Classification) with ⟨s', t, hrun, hans⟩
  have hasked := hall _ s' t hrun hans
  rw [hread.left] at hasked
  have hdone := renew_does hrun hans
  have hstored : storedFor (utf8 "\x7b\x7d") = some none := by
    show ((decodeFirst (runes (utf8 "\x7b\x7d")) false).bind decodeRenewBody).map stored = _
    rw [hread.right]
    rfl
  rw [hstored] at hdone
  cases before_of_refused hasked hdone

def sampleTimestamp : String := "2026-07-01T02:00:00.5+02:00"

def sampleSpelling : Spelling :=
  ⟨2026, 7, 1, 'T', 2, 2, 0, 0, some ('.', ['5']), .offset '+' 2 0⟩

def sampleRenewal : Bytes :=
  utf8 (String.ofList (Json.obj [("expiration_at", .str sampleTimestamp)]).marshal)

/-- Half a second into the first of July 2026, in UTC. -/
theorem renewed_as_asked_iff_sample :
    letI := goTime
    letI := sampleCollation
    asked (fun _ => false) (wholeBody sampleRenewal) = some (some 1782864000500000000) ∧
      forall (s s' : Shared Classification) (t : List (ServerEvent Classification)),
        Program.Runs (handleRenew "sub_a" sampleRenewal false) t () ->
        (master Classification).Answered s t s' ->
        RenewedAs "sub_a" (asked (fun _ => false) (wholeBody sampleRenewal)) t s s' := by
  let := goTime
  let := sampleCollation
  have hspells : Spells sampleTimestamp sampleSpelling := spelling_iff.mp (by rfl)
  have hinstant : sampleSpelling.instant = 1782864000500000000 := by decide +kernel
  have hread := wholeBody_marshal (v := .obj [("expiration_at", .str sampleTimestamp)])
    (.obj fun _ _ hmember => by cases List.mem_singleton.mp hmember; exact .str _ _)
  have hvalue : (Json.obj [("expiration_at", .str sampleTimestamp)]).reread =
      .obj [("expiration_at", .str sampleTimestamp)] := by rfl
  rw [hvalue] at hread
  have hrequested : Requested (fun _ => false) (.str sampleTimestamp)
      (some (1782864000500000000 : Rat)) := by
    rw [← hinstant]
    exact .str hspells (by decide)
  have hspelled : Spelled (.str sampleTimestamp) (some 1782864000500000000) := by
    rw [← hinstant]
    exact .str hspells (by decide)
  have hmicro : microseconds 1782864000500000000 = 1782864000500000000 := by decide +kernel
  constructor
  · show asked _ (wholeBody (utf8 _)) = _
    rw [hread.left]
    exact askedMember_iff.mpr hrequested
  · apply (renewed_as_asked_iff (fun _ => false) "sub_a" sampleRenewal).mpr
    constructor
    · intro v hv _
      cases hread.right.symm.trans hv
      right
      refine ⟨?_, .str sampleTimestamp, .str sampleTimestamp, _, by rfl, by rfl, hspelled, ?_⟩
      · intro hrefused
        rcases hrefused with ⟨member, hmember, _, hbad⟩
        cases List.mem_singleton.mp hmember
        exact hbad _ hspelled
      · rw [Option.map_some, hmicro]
        exact hrequested
    · intro v _ hnone
      cases hread.left.symm.trans hnone
    · intro hnone
      cases hread.right.symm.trans hnone

end Sample

end Server
end Telemux
