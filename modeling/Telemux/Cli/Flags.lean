import Mathlib.Data.List.Basic

/-!
# Command-line flags

What `flag.FlagSet` makes of the arguments of a command: `-name`, `-name=value` and
`-name value`, with one dash or two, up to the first argument that is no flag.
Flags are texts and booleans here; `flag.ContinueOnError` is an error for a flag that
is not defined, for one without its value, and for help.
-/

namespace Telemux
namespace Cli

/-- `strconv.ParseBool`. -/
def ParseBool (s : String) : Option Bool :=
  if ["1", "t", "T", "TRUE", "true", "True"].contains s then some true
  else if ["0", "f", "F", "FALSE", "false", "False"].contains s then some false
  else none

inductive Argument where
  /-- No flag, or `--`: the flags end here. -/
  | stop
  | bad
  | flag (name : String) (value : Option String)
deriving DecidableEq, Repr

def nameAndValue (s : List Char) : Argument :=
  match s with
  | [] => .bad
  | '-' :: _ => .bad
  | '=' :: _ => .bad
  | _ =>
      .flag (String.ofList (s.takeWhile fun c => decide (c ≠ '=')))
        (match s.dropWhile fun c => decide (c ≠ '=') with
        | [] => none
        | _ :: value => some (String.ofList value))

def splitArgument (arg : String) : Argument :=
  match arg.toList with
  | ['-', '-'] => .stop
  | '-' :: '-' :: s => nameAndValue s
  | '-' :: c :: s => nameAndValue (c :: s)
  | _ => .stop

structure FlagSet (σ : Type) where
  /-- Whether a flag is defined, and whether it is a boolean one. -/
  formal : String -> Option Bool
  setText : String -> String -> σ -> σ
  setBool : String -> Bool -> σ -> σ

variable {σ β : Type}

def FlagSet.Parse (flags : FlagSet σ) : List String -> σ -> Option σ
  | [], s => some s
  | arg :: rest, s =>
      match splitArgument arg with
      | .stop => some s
      | .bad => none
      | .flag name value =>
          match flags.formal name with
          | none => none
          | some true =>
              match ParseBool (value.getD "true") with
              | none => none
              | some b => flags.Parse rest (flags.setBool name b s)
          | some false =>
              match value with
              | some v => flags.Parse rest (flags.setText name v s)
              | none =>
                  match rest with
                  | [] => none
                  | v :: rest => flags.Parse rest (flags.setText name v s)

/-!
## What an argument says
-/

structure IsName (name : String) : Prop where
  nonempty : name.toList ≠ []
  equals : '=' ∉ name.toList
  dash : name.toList.head? ≠ some '-'

instance (name : String) : Decidable (IsName name) :=
  decidable_of_iff (name.toList ≠ [] ∧ '=' ∉ name.toList ∧ name.toList.head? ≠ some '-')
    ⟨fun h => ⟨h.left, h.right.left, h.right.right⟩, fun h => ⟨h.nonempty, h.equals, h.dash⟩⟩

def valueText : Option String -> List Char
  | none => []
  | some v => '=' :: v.toList

def flagText (name : String) (value : Option String) : List Char :=
  name.toList ++ valueText value

theorem nameAndValue_flag {name : String} {value : Option String} {s : List Char}
    (h : nameAndValue s = .flag name value) : s = flagText name value := by
  unfold nameAndValue at h
  split at h
  · cases h
  · cases h
  · cases h
  · cases h
    have hsplit := List.takeWhile_append_dropWhile (p := fun c => decide (c ≠ '=')) (l := s)
    split
    · rename_i hrest
      rw [hrest] at hsplit
      rw [flagText, String.toList_ofList, valueText, hsplit]
    · rename_i c value hrest
      have hequals : c = '=' := by
        have hhead := List.head?_dropWhile_not (fun c => decide (c ≠ '=')) s
        rw [hrest] at hhead
        simpa using hhead
      rw [hrest, hequals] at hsplit
      rw [flagText, String.toList_ofList, valueText, String.toList_ofList, hsplit]

theorem nameAndValue_flagText {name : String} (h : IsName name) (value : Option String) :
    nameAndValue (flagText name value) = .flag name value := by
  have hname : forall c, c ∈ name.toList -> decide (c ≠ '=') = true := by
    intro c hc
    rw [decide_eq_true_iff]
    intro heq
    exact h.equals (heq ▸ hc)
  have hvalue : (valueText value).takeWhile (fun c => decide (c ≠ '=')) = [] ∧
      (valueText value).dropWhile (fun c => decide (c ≠ '=')) = valueText value := by
    cases value with
    | none => exact ⟨rfl, rfl⟩
    | some v => exact ⟨rfl, rfl⟩
  have htake : (flagText name value).takeWhile (fun c => decide (c ≠ '=')) = name.toList := by
    rw [flagText, List.takeWhile_append_of_pos hname, hvalue.left, List.append_nil]
  have hdrop : (flagText name value).dropWhile (fun c => decide (c ≠ '=')) = valueText value := by
    rw [flagText, List.dropWhile_append_of_pos hname, hvalue.right]
  have hhead : exists c cs, flagText name value = c :: cs ∧ c ≠ '-' ∧ c ≠ '=' := by
    cases hchars : name.toList with
    | nil => exact absurd hchars h.nonempty
    | cons c cs =>
        refine ⟨c, cs ++ valueText value, by rw [flagText, hchars]; rfl, ?_, ?_⟩
        · intro heq
          exact h.dash (by rw [hchars, heq]; rfl)
        · intro heq
          exact h.equals (by rw [hchars, heq]; exact List.mem_cons_self)
  rcases hhead with ⟨c, cs, hchars, hdash, hequals⟩
  unfold nameAndValue
  rw [htake, hdrop, hchars, String.ofList_toList]
  split
  · rename_i heq
    cases heq
  · rename_i heq
    cases heq
    exact absurd rfl hdash
  · rename_i heq
    cases heq
    exact absurd rfl hequals
  · cases value with
    | none => rfl
    | some v =>
        rw [valueText]
        exact congrArg (fun v => Argument.flag name (some v)) String.ofList_toList

/-- An argument that would be the flag `name`. -/
def Mentions (name arg : String) : Prop :=
  exists value, arg.toList = '-' :: flagText name value ∨
    arg.toList = '-' :: '-' :: flagText name value

theorem mentions_of_split {name arg : String} {value : Option String}
    (h : splitArgument arg = .flag name value) : Mentions name arg := by
  unfold splitArgument at h
  split at h
  · cases h
  · rename_i s harg
    exact ⟨value, Or.inr (nameAndValue_flag h ▸ harg)⟩
  · rename_i c s _ harg
    exact ⟨value, Or.inl (nameAndValue_flag h ▸ harg)⟩
  · cases h

theorem split_of_mentions {name arg : String} (h : IsName name) (hmentions : Mentions name arg) :
    exists value, splitArgument arg = .flag name value := by
  rcases hmentions with ⟨value, harg⟩
  refine ⟨value, ?_⟩
  have hread := nameAndValue_flagText h value
  have hhead : exists c cs, flagText name value = c :: cs ∧ c ≠ '-' := by
    cases hchars : name.toList with
    | nil => exact absurd hchars h.nonempty
    | cons c cs =>
        refine ⟨c, cs ++ valueText value, by rw [flagText, hchars]; rfl, ?_⟩
        intro heq
        exact h.dash (by rw [hchars, heq]; rfl)
  rcases hhead with ⟨c, cs, hchars, hdash⟩
  rw [hchars] at harg hread
  unfold splitArgument
  rcases harg with hone | htwo
  · rw [hone]
    split
    · rename_i heq
      cases heq
      exact absurd rfl hdash
    · rename_i heq
      cases heq
      exact absurd rfl hdash
    · rename_i heq
      cases heq
      exact hread
    · rename_i hother
      exact absurd rfl (hother c cs)
  · rw [htwo]
    split
    · rename_i heq
      cases heq
    · rename_i heq
      cases heq
      exact hread
    · rename_i hother heq
      cases heq
      exact absurd rfl hother
    · rename_i hother
      exact absurd rfl (hother '-' (c :: cs))

theorem mentions_iff {name arg : String} (h : IsName name) :
    Mentions name arg <-> exists value, splitArgument arg = .flag name value := by
  constructor
  · exact split_of_mentions h
  · intro hflag
    rcases hflag with ⟨value, hsplit⟩
    exact mentions_of_split hsplit

/-!
## What is not said
-/

/-- A setting that only the flag `name` changes. -/
structure FlagSet.SetBy (flags : FlagSet σ) (name : String) (f : σ -> β) : Prop where
  text : forall other v s, other ≠ name -> f (flags.setText other v s) = f s
  bool : forall other b s, other ≠ name -> f (flags.setBool other b s) = f s

theorem parse_unmentioned {flags : FlagSet σ} {name : String} {f : σ -> β}
    (hset : flags.SetBy name f) {args : List String} {s s' : σ}
    (hargs : forall arg, arg ∈ args -> ¬ Mentions name arg)
    (hparse : flags.Parse args s = some s') : f s' = f s := by
  have hother : forall {arg other value}, arg ∈ args -> splitArgument arg = .flag other value ->
      other ≠ name := by
    intro arg other value harg hsplit heq
    exact hargs arg harg (mentions_of_split (heq ▸ hsplit))
  fun_induction FlagSet.Parse flags args s with
  | case1 s =>
      cases hparse
      rfl
  | case2 arg rest s _ =>
      cases hparse
      rfl
  | case3 arg rest s _ => cases hparse
  | case4 arg rest s other value _ _ => cases hparse
  | case5 arg rest s other value _ _ _ => cases hparse
  | case6 arg rest s other value hsplit _ b _ ih =>
      have hrest := ih (fun a ha => hargs a (List.mem_cons_of_mem _ ha)) hparse
        (fun ha => hother (List.mem_cons_of_mem _ ha))
      exact hrest.trans (hset.bool other b s (hother List.mem_cons_self hsplit))
  | case7 arg rest s other _ v hsplit ih =>
      have hrest := ih (fun a ha => hargs a (List.mem_cons_of_mem _ ha)) hparse
        (fun ha => hother (List.mem_cons_of_mem _ ha))
      exact hrest.trans (hset.text other v s (hother List.mem_cons_self hsplit))
  | case8 arg s other _ _ => cases hparse
  | case9 arg s other _ v rest hsplit ih =>
      have hmem : forall {a}, a ∈ rest -> a ∈ arg :: v :: rest :=
        fun ha => List.mem_cons_of_mem _ (List.mem_cons_of_mem _ ha)
      have hrest := ih (fun a ha => hargs a (hmem ha)) hparse (fun ha => hother (hmem ha))
      exact hrest.trans (hset.text other v s (hother List.mem_cons_self hsplit))

end Cli
end Telemux
