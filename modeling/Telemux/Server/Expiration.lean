import Telemux.Server.Users
import Telemux.TelemtSync.Respelling
import Telemux.Time.RFC3339

/-!
# The way of an expiration to the node

The panel takes a timestamp from JSON, the database keeps it to the microsecond,
and `ListDesired` writes it in UTC for the node.  An offset can carry a timestamp
out of the years that RFC 3339 has, and what is written then is not one.
-/

namespace Telemux
namespace Server

open Net Store TelemtSync Time

/-- Package `time`. -/
@[reducible] def goTime : RFC3339 where
  parse := Parse
  format := Format

/-- `time.Time.UnmarshalJSON`, which reads what `time.Parse` reads. -/
@[reducible] def goTimeJSON : TimeJSON where
  unmarshal := Parse

/-- `TIMESTAMPTZ` keeps microseconds. -/
def timestamptz (t : Int) : Int :=
  t / 1000 * 1000

section Written

variable [RFC3339] [TimeJSON] [Collation]

/-- The panel took the text `s` for `t` and stored it, and the sync loop reads `d`. -/
inductive Written (s : String) (t : Int) (d : DesiredUser) : Prop where
  | created {table table' : UsersTable} {now : Int} {generated : Option String}
      {secret : String} {maxConns : Option Int} {u : User} :
      decodeTime (.str s) = some t ->
      CreateUser table now generated d.username secret (some (timestamptz t)) maxConns =
        .ok (u, table') ->
      d ∈ ListDesired table' -> Written s t d
  | renewed {table : UsersTable} :
      decodeTime (.str s) = some t ->
      d ∈ ListDesired (SetExpiration table d.username (some (timestamptz t))).2 ->
      Written s t d

omit [TimeJSON] in
theorem desired_created {table table' : UsersTable} {now : Int} {generated : Option String}
    {secret : String} {exp maxConns : Option Int} {u : User} {d : DesiredUser}
    (h : CreateUser table now generated d.username secret exp maxConns = .ok (u, table'))
    (hd : d ∈ ListDesired table') : d.expirationRFC3339 = exp.map RFC3339.format := by
  rcases mem_listDesired.mp hd with ⟨v, hv, _, rfl⟩
  rcases createUser_row h with ⟨hnew, hrows, hexp⟩
  rw [hrows, List.mem_append, List.mem_singleton] at hv
  rcases hv with hold | rfl
  · exact absurd rfl (hnew v hold)
  · exact congrArg (Option.map RFC3339.format) hexp

omit [TimeJSON] in
theorem desired_renewed {table : UsersTable} {exp : Option Int} {d : DesiredUser}
    (hd : d ∈ ListDesired (SetExpiration table d.username exp).2) :
    d.expirationRFC3339 = exp.map RFC3339.format := by
  rcases mem_listDesired.mp hd with ⟨v, hv, _, hdesired⟩
  have hname : v.username = d.username := by
    rw [← hdesired]
    rfl
  have hexp : v.expirationAt = exp := by
    rcases List.mem_map.mp hv with ⟨u, _, hu⟩
    split at hu
    · rw [← hu]
    · rename_i hother
      rw [hu] at hother
      exact absurd hname hother
  rw [← hdesired, ← hexp]
  rfl

omit [Collation] in
structure Survives (t : Int) (text : String) : Prop where
  valid : IsTimestamp text.toList
  parses : RFC3339.parse text = some (t / second * second)
  compared : forall b, ExpirationEquals (some text) (some b) = true <->
    RFC3339.parse b = some (t / second * second)

theorem written_text {s : String} {t : Int} {d : DesiredUser} (h : Written s t d) :
    d.expirationRFC3339 = some (RFC3339.format (timestamptz t)) := by
  cases h with
  | created _ hcreate hd => exact desired_created hcreate hd
  | renewed _ hd => exact desired_renewed hd

end Written

theorem timestamptz_second (t : Int) : timestamptz t / second * second = t / second * second := by
  unfold timestamptz second
  omega

theorem timestamptz_inRange (t : Int) : InRange (timestamptz t) <-> InRange t := by
  unfold InRange yearStart timestamptz second
  omega

theorem survives_iff (t : Int) :
    letI := goTime
    Survives t (Format (timestamptz t)) <-> InRange t := by
  let := goTime
  constructor
  · intro hsurvives
    by_contra hrange
    have hnone := parse_format_none (mt (timestamptz_inRange t).mp hrange)
    have hparses : Parse (Format (timestamptz t)) = _ := hsurvives.parses
    rw [hnone] at hparses
    cases hparses
  · intro hrange
    have hstored := (timestamptz_inRange t).mpr hrange
    have hparses : Parse (Format (timestamptz t)) = some (t / second * second) := by
      rw [parse_format hstored, timestamptz_second]
    constructor
    · exact format_timestamp hstored
    · exact hparses
    · intro b
      rw [expirationEquals_some_iff]
      constructor
      · intro hequal
        rcases hequal with rfl | ⟨t', htext, hb⟩
        · exact hparses
        · have hsame : some t' = some (t / second * second) := htext.symm.trans hparses
          rw [← hsame]
          exact hb
      · intro hb
        exact .inr ⟨_, hparses, hb⟩

/--
An expiration that the panel accepts reaches the node as the same instant, to the
second, exactly if its year in UTC is one that RFC 3339 has.
-/
theorem expiration_survives_iff [Collation] {s : String} {t : Int} {d : DesiredUser}
    (hwritten :
      letI := goTime
      letI := goTimeJSON
      Written s t d) :
    letI := goTime
    (exists text, d.expirationRFC3339 = some text ∧ Survives t text) <-> InRange t := by
  let := goTime
  let := goTimeJSON
  rw [← survives_iff t, written_text hwritten]
  constructor
  · intro htext
    rcases htext with ⟨text, hsome, hsurvives⟩
    cases hsome
    exact hsurvives
  · intro hsurvives
    exact ⟨_, rfl, hsurvives⟩

section Sample

def sampleUnlimited : UsersTable :=
  ⟨[⟨"sub_a", "ee", none, none, true, 0⟩], List.nodup_singleton _⟩

def renewedUser (t : Int) : DesiredUser :=
  ⟨"sub_a", "ee", some (Format (timestamptz t)), none⟩

theorem written_renewedUser [Collation] {s : String} {t : Int} (h : Parse s = some t) :
    letI := goTime
    letI := goTimeJSON
    Written s t (renewedUser t) := by
  let := goTime
  let := goTimeJSON
  have hlisted : renewedUser t ∈
      ListDesired (SetExpiration sampleUnlimited "sub_a" (some (timestamptz t))).2 :=
    mem_listDesired.mpr ⟨_, List.mem_cons_self, rfl, rfl⟩
  exact .renewed h hlisted

/-- The first of July 2026. -/
theorem expiration_survives_iff_sample :
    letI := goTime
    exists text, (renewedUser 1782864000000000000).expirationRFC3339 = some text ∧
      Survives 1782864000000000000 text := by
  let := sampleCollation
  have hread : Parse "2026-07-01T00:00:00Z" = some 1782864000000000000 := by decide +kernel
  exact (expiration_survives_iff (written_renewedUser hread)).mpr ⟨by decide, by decide⟩

/-- An hour before the year 0 in UTC. -/
theorem expiration_lost :
    letI := sampleCollation
    letI := goTime
    letI := goTimeJSON
    Written "0000-01-01T00:00:00+01:00" (-62167222800000000000)
        (renewedUser (-62167222800000000000)) ∧
      ¬ exists text, (renewedUser (-62167222800000000000)).expirationRFC3339 = some text ∧
        Survives (-62167222800000000000) text := by
  let := sampleCollation
  let := goTime
  let := goTimeJSON
  have hread : Parse "0000-01-01T00:00:00+01:00" = some (-62167222800000000000) := by
    decide +kernel
  refine ⟨written_renewedUser hread, ?_⟩
  intro hsurvives
  rcases hsurvives with ⟨text, hsome, hsurvives⟩
  cases hsome
  have hrange := (survives_iff (-62167222800000000000)).mp hsurvives
  exact absurd hrange.left (by decide)

end Sample

end Server
end Telemux
