import Mathlib.Data.List.Infix
import Telemux.Telemt.Client

/-!
# How the errors of Telemt are told apart

An error body names its code and explains itself in a message, which may repeat
what the request said.  The methods of `*APIError` look for a word anywhere in
the body.  The words have no quote in them, so they are found in the code or in
the message and nowhere across, and the class of an error is that of its code as
long as the message stays away from the words.
-/

namespace Telemux
namespace Telemt

open Sync

/-!
## Words of a quoted text
-/

section Infix

variable {α : Type}

theorem prefix_of_prefix_append {w a b : List α} {q : α} (hq : q ∉ w) (h : w <+: a ++ q :: b) :
    w <+: a := by
  induction a generalizing w with
  | nil =>
      cases w with
      | nil => exact List.prefix_rfl
      | cons x w =>
          rw [List.nil_append, List.cons_prefix_cons] at h
          exact absurd (h.left ▸ List.mem_cons_self) hq
  | cons x a ih =>
      cases w with
      | nil => exact List.nil_prefix
      | cons y w =>
          rw [List.cons_append, List.cons_prefix_cons] at h
          rw [List.cons_prefix_cons]
          exact ⟨h.left, ih (fun hmem => hq (List.mem_cons_of_mem y hmem)) h.right⟩

theorem infix_append_separator {w a b : List α} {q : α} (hq : q ∉ w) :
    w <:+: a ++ q :: b <-> w <:+: a ∨ w <:+: b := by
  constructor
  · intro h
    induction a with
    | nil =>
        rw [List.nil_append, List.infix_cons_iff] at h
        rcases h with hfirst | hlater
        · exact .inl (prefix_of_prefix_append (a := []) hq hfirst).isInfix
        · exact .inr hlater
    | cons x a ih =>
        rw [List.cons_append, List.infix_cons_iff] at h
        rcases h with hfirst | hlater
        · exact .inl (prefix_of_prefix_append (a := x :: a) hq hfirst).isInfix
        · rcases ih hlater with hleft | hright
          · exact .inl (List.infix_cons hleft)
          · exact .inr hright
  · intro h
    rcases h with hleft | hright
    · exact List.infix_append_of_infix_left hleft
    · exact List.infix_append_of_infix_right (List.infix_cons hright)

end Infix

theorem contains_iff {s substr : String} :
    Contains s substr = true <-> substr.toList <:+: s.toList := by
  unfold Contains
  rw [List.any_eq_true]
  constructor
  · intro h
    rcases h with ⟨t, ht, hfirst⟩
    rw [List.mem_tails] at ht
    exact (List.isPrefixOf_iff_prefix.mp hfirst).isInfix.trans ht.isInfix
  · intro h
    rcases List.infix_iff_prefix_suffix.mp h with ⟨t, hfirst, hlast⟩
    exact ⟨t, (List.mem_tails t s.toList).mpr hlast, List.isPrefixOf_iff_prefix.mpr hfirst⟩

/-!
## Error bodies
-/

/-- How the node writes a text into a JSON string; letters and underscores stay. -/
class JsonQuote where
  quote : String -> String
  plain : forall s, (forall c, c ∈ s.toList -> c.isLower = true ∨ c = '_') -> quote s = s

def escapeChar (c : Char) : List Char :=
  if c = '"' ∨ c = '\\' then ['\\', c]
  else if c = '\n' then ['\\', 'n']
  else if c = '\r' then ['\\', 'r']
  else if c = '\t' then ['\\', 't']
  else if c.toNat < 0x20 then
    ['\\', 'u', '0', '0', Nat.digitChar (c.toNat / 16), Nat.digitChar (c.toNat % 16)]
  else [c]

theorem escapeChar_plain {c : Char} (h : c.isLower = true ∨ c = '_') : escapeChar c = [c] := by
  rcases h with hlower | rfl
  · have hcode : 97 ≤ c.toNat := by
      have hbounds : (decide (c.val ≥ 'a'.val) && decide (c.val ≤ 'z'.val)) = true := hlower
      rw [Bool.and_eq_true, decide_eq_true_eq] at hbounds
      exact hbounds.left
    have hne : forall d : Char, d.toNat < 97 -> c ≠ d := by
      intro d hd heq
      subst heq
      omega
    unfold escapeChar
    rw [if_neg, if_neg (hne _ (by decide)), if_neg (hne _ (by decide)),
      if_neg (hne _ (by decide)), if_neg (by omega)]
    intro hquote
    rcases hquote with hquote | hbackslash
    · exact hne _ (by decide) hquote
    · exact hne _ (by decide) hbackslash
  · decide

@[reducible] def sampleQuote : JsonQuote where
  quote s := String.ofList (s.toList.flatMap escapeChar)
  plain s h := by
    have hsame : s.toList.flatMap escapeChar = s.toList := by
      rw [List.flatMap_congr fun c hc => escapeChar_plain (h c hc)]
      exact List.flatMap_singleton' s.toList
    rw [hsame, String.ofList_toList]

def quoted (s : String) : String :=
  "\"" ++ s ++ "\""

section Body

variable [JsonQuote]

/-- `{"error":{"code":c,"message":m}}`. -/
def errorBody (c m : String) : String :=
  "\x7b" ++ quoted "error" ++ ":\x7b" ++ quoted "code" ++ ":" ++ quoted (JsonQuote.quote c) ++
    "," ++ quoted "message" ++ ":" ++ quoted (JsonQuote.quote m) ++ "\x7d\x7d"

omit [JsonQuote] in
theorem contains_quoted {word : String} (h : '"' ∉ word.toList) (before s after : String) :
    Contains (before ++ quoted s ++ after) word =
      (Contains before word || Contains s word || Contains after word) := by
  have hlist : (before ++ quoted s ++ after).toList =
      before.toList ++ '"' :: (s.toList ++ '"' :: after.toList) := by
    simp [quoted]
  rw [Bool.eq_iff_iff, Bool.or_eq_true, Bool.or_eq_true]
  simp only [contains_iff]
  rw [hlist, infix_append_separator h, infix_append_separator h, or_assoc]

def words : List String :=
  ["revision", "read_only", "user_exists"]

theorem contains_errorBody {word : String} (h : word ∈ words) (c m : String) :
    Contains (errorBody c m) word =
      (Contains (JsonQuote.quote c) word || Contains (JsonQuote.quote m) word) := by
  have hquote : forall w, w ∈ words -> '"' ∉ w.toList := by decide
  have hframe : forall w, w ∈ words -> forall s,
      s ∈ ["\x7b", "error", ":\x7b", "code", ":", ",", "message", "\x7d\x7d"] ->
        Contains s w = false := by
    decide
  have hnone := hframe word h
  simp only [List.forall_mem_cons, List.not_mem_nil, false_implies, implies_true, and_true]
    at hnone
  unfold errorBody
  simp only [contains_quoted (hquote word h), hnone, Bool.false_or, Bool.or_false]

/-!
## The class of an error

What the methods and `SyncNode` should make of two errors with one code, and the
condition on the texts under which they do.
-/

/-- The class of an error is that of its code, whatever the messages `m` and `m'` say. -/
structure ClassifiedByCode (status : Nat) (c m m' : String) : Prop where
  same_conflict : RevisionConflict status (errorBody c m) =
    RevisionConflict status (errorBody c m')
  same_readOnly : ReadOnly status (errorBody c m) = ReadOnly status (errorBody c m')
  same_done : AlreadyDone status (errorBody c m) = AlreadyDone status (errorBody c m')
  conflict_code : RevisionConflict status (errorBody c m) = true -> c = "revision_conflict"
  other_code : status = 409 -> c ≠ "revision_conflict" -> c ≠ "user_exists" ->
    errorClass (ClientError.api status (errorBody c m)) ≠ .revisionConflict ∧
      errorClass (ClientError.api status (errorBody c m)) ≠ .alreadyDone

def Mentions (text word : String) : Bool :=
  Contains (JsonQuote.quote text) word

structure WordsInCodes (status : Nat) (c m m' : String) : Prop where
  revision_conflict : status = 409 -> c = "revision_conflict" ->
    Mentions m "user_exists" = Mentions m' "user_exists"
  user_exists : status = 409 -> c = "user_exists" ->
    Mentions m "revision" = false ∧ Mentions m' "revision" = false
  other_code : status = 409 -> c ≠ "revision_conflict" -> c ≠ "user_exists" ->
    forall text, text ∈ [c, m, m'] ->
      Mentions text "revision" = false ∧ Mentions text "user_exists" = false
  forbidden : status = 403 ->
    Mentions c "read_only" = true ∨ Mentions m "read_only" = Mentions m' "read_only"

theorem revisionConflict_errorBody (status : Nat) (c m : String) :
    RevisionConflict status (errorBody c m) =
      (decide (status = 409) && (Mentions c "revision" || Mentions m "revision")) := by
  unfold RevisionConflict Mentions
  rw [contains_errorBody (by decide)]

theorem readOnly_errorBody (status : Nat) (c m : String) :
    ReadOnly status (errorBody c m) =
      (decide (status = 403) && (Mentions c "read_only" || Mentions m "read_only")) := by
  unfold ReadOnly Mentions
  rw [contains_errorBody (by decide)]

theorem alreadyDone_errorBody (status : Nat) (c m : String) :
    AlreadyDone status (errorBody c m) =
      (decide (status = 404) ||
        (decide (status = 409) && (Mentions c "user_exists" || Mentions m "user_exists"))) := by
  unfold AlreadyDone Mentions
  rw [contains_errorBody (by decide)]

omit [JsonQuote] in
theorem errorClass_conflict (body : String) :
    (errorClass (ClientError.api 409 body) ≠ .revisionConflict ∧
      errorClass (ClientError.api 409 body) ≠ .alreadyDone) <->
    RevisionConflict 409 body = false ∧ AlreadyDone 409 body = false := by
  have hreadOnly : ReadOnly 409 body = false := by
    simp [ReadOnly]
  unfold errorClass
  simp only [ClassifiedError.classified, hreadOnly]
  cases AlreadyDone 409 body with
  | true => simp
  | false =>
      cases RevisionConflict 409 body with
      | true => simp
      | false => simp

theorem quote_plain {s : String} (h : s.toList.all (fun c => c.isLower || c == '_') = true) :
    JsonQuote.quote s = s := by
  apply JsonQuote.plain
  intro c hc
  simpa using List.all_eq_true.mp h c hc

theorem mentions_code :
    Mentions "revision_conflict" "revision" = true ∧
      Mentions "revision_conflict" "user_exists" = false ∧
      Mentions "user_exists" "revision" = false ∧
      Mentions "user_exists" "user_exists" = true := by
  rw [Mentions, Mentions, Mentions, Mentions, quote_plain (s := "revision_conflict") rfl,
    quote_plain (s := "user_exists") rfl]
  decide

theorem quiet_of_classified {c m m' : String} (h : ClassifiedByCode 409 c m m')
    (hcode : c ≠ "revision_conflict") :
    Mentions c "revision" = false ∧ Mentions m "revision" = false ∧
      Mentions m' "revision" = false := by
  have hm : RevisionConflict 409 (errorBody c m) = false :=
    eq_false_of_ne_true fun hconflict => hcode (h.conflict_code hconflict)
  have hm' := h.same_conflict.symm.trans hm
  simp only [revisionConflict_errorBody, decide_true, Bool.true_and,
    Bool.or_eq_false_iff] at hm hm'
  exact ⟨hm.left, hm.right, hm'.right⟩

theorem wordsInCodes_of_classified {status : Nat} {c m m' : String}
    (h : ClassifiedByCode status c m m') : WordsInCodes status c m m' := by
  rcases mentions_code with ⟨_, hconflictDone, _, _⟩
  constructor
  · intro hstatus hcode
    subst hstatus hcode
    have hdone := h.same_done
    simpa [alreadyDone_errorBody, hconflictDone] using hdone
  · intro hstatus hcode
    subst hstatus hcode
    exact (quiet_of_classified h (by decide)).right
  · intro hstatus hconflict hexists
    subst hstatus
    have hdone := ((errorClass_conflict _).mp (h.other_code rfl hconflict hexists)).right
    have hdone' := h.same_done.symm.trans hdone
    simp only [alreadyDone_errorBody, Nat.reduceEqDiff, decide_false, decide_true,
      Bool.false_or, Bool.true_and, Bool.or_eq_false_iff] at hdone hdone'
    rcases quiet_of_classified h hconflict with ⟨hc, hm, hm'⟩
    simp only [List.forall_mem_cons, List.not_mem_nil, false_implies, implies_true, and_true]
    exact ⟨⟨hc, hdone.left⟩, ⟨hm, hdone.right⟩, ⟨hm', hdone'.right⟩⟩
  · intro hstatus
    subst hstatus
    have hreadOnly := h.same_readOnly
    simp only [readOnly_errorBody, decide_true, Bool.true_and] at hreadOnly
    cases hc : Mentions c "read_only" with
    | true => exact .inl rfl
    | false =>
        rw [hc, Bool.false_or, Bool.false_or] at hreadOnly
        exact .inr hreadOnly

theorem conflict_of_wordsInCodes {c m m' : String} (h : WordsInCodes 409 c m m') :
    RevisionConflict 409 (errorBody c m) = RevisionConflict 409 (errorBody c m') ∧
      AlreadyDone 409 (errorBody c m) = AlreadyDone 409 (errorBody c m') ∧
      (c ≠ "revision_conflict" -> RevisionConflict 409 (errorBody c m) = false) ∧
      (c ≠ "revision_conflict" -> c ≠ "user_exists" ->
        AlreadyDone 409 (errorBody c m) = false) := by
  rcases mentions_code with ⟨hconflict, hconflictDone, hexistsConflict, hexists⟩
  simp only [revisionConflict_errorBody, alreadyDone_errorBody, Nat.reduceEqDiff,
    decide_false, decide_true, Bool.false_or, Bool.true_and]
  by_cases hrc : c = "revision_conflict"
  · have hmessage := h.revision_conflict rfl hrc
    subst hrc
    simp [hconflict, hconflictDone, hmessage]
  · by_cases hue : c = "user_exists"
    · have hmessages := h.user_exists rfl hue
      subst hue
      simp [hexistsConflict, hexists, hmessages]
    · have htexts := h.other_code rfl hrc hue
      simp only [List.forall_mem_cons, List.not_mem_nil, false_implies, implies_true,
        and_true] at htexts
      simp [htexts]

theorem classified_of_wordsInCodes {status : Nat} {c m m' : String}
    (h : WordsInCodes status c m m') : ClassifiedByCode status c m m' := by
  constructor
  · by_cases hstatus : status = 409
    · subst hstatus
      exact (conflict_of_wordsInCodes h).left
    · simp [revisionConflict_errorBody, hstatus]
  · by_cases hstatus : status = 403
    · simp only [readOnly_errorBody]
      rcases h.forbidden hstatus with hcode | hmessage
      · simp [hcode]
      · rw [hmessage]
    · simp [readOnly_errorBody, hstatus]
  · by_cases hstatus : status = 409
    · subst hstatus
      exact (conflict_of_wordsInCodes h).right.left
    · simp [alreadyDone_errorBody, hstatus]
  · intro htrue
    by_contra hcode
    have hstatus : status = 409 := by
      rw [revisionConflict_errorBody, Bool.and_eq_true, decide_eq_true_eq] at htrue
      exact htrue.left
    subst hstatus
    rw [(conflict_of_wordsInCodes h).right.right.left hcode] at htrue
    cases htrue
  · intro hstatus hrc hue
    subst hstatus
    rcases conflict_of_wordsInCodes h with ⟨_, _, hconflict, hdone⟩
    exact (errorClass_conflict _).mpr ⟨hconflict hrc, hdone hrc hue⟩

/-- The class of an error is that of its code exactly if no text stands in the way. -/
theorem classified_by_code_iff (status : Nat) (c m m' : String) :
    ClassifiedByCode status c m m' <-> WordsInCodes status c m m' :=
  ⟨wordsInCodes_of_classified, classified_of_wordsInCodes⟩

end Body

/-- The name of a user turns another conflict into a conflict of revisions. -/
theorem classified_by_message :
    letI := sampleQuote
    ¬ ClassifiedByCode 409 "last_user_forbidden" "user sub_revision is the last one"
      "user sub_a is the last one" := by
  let := sampleQuote
  intro h
  have hwrong := h.conflict_code (by decide)
  exact absurd hwrong (by decide)

end Telemt
end Telemux
