import Telemux.Net.JsonText

/-!
# JSON texts that were cut off

An object ends with its brace: nothing less is read as an object, and what follows
does not change it.  So a text that was cut off is refused, or what was read of it is
what the whole text is read as.
-/

namespace Telemux
namespace Net

open Text

/-!
## A value is read by itself
-/

theorem solid_expect (c : Char) : (expect c).Solid := by
  apply Reader.solid_skipping
  apply Reader.solid_next
  intro d
  exact Reader.firm_ite (Reader.firm_pure _) Reader.solid_fail.firm

theorem firm_readWord (v : Json) (word : List Char) : (readWord v word).Firm := by
  induction word with
  | nil => exact Reader.firm_pure v
  | cons c word ih =>
      apply Reader.Solid.firm
      apply Reader.solid_next
      intro d
      exact Reader.firm_ite ih Reader.solid_fail.firm

theorem solid_readName : readName.Solid := by
  apply (solid_expect '"').andThen
  intro _
  apply Reader.Solid.firm
  apply Reader.Solid.andThen solid_scanString
  intro name
  exact ((solid_expect ':').map _).firm

theorem local_readScalar : readScalar.Local := by
  apply Reader.local_ahead
  · apply Reader.local_next
    intro c
    exact solid_readString.isLocal
  · apply Reader.local_ahead (firm_readWord _ _).isLocal
    apply Reader.local_ahead (firm_readWord _ _).isLocal
    exact Reader.local_ahead (firm_readWord _ _).isLocal local_readNumber

theorem solid_closedBy {α : Type} (c : Char) (nothing : α) {read : Reader Char α}
    (h : read.Solid) : (closedBy c nothing read).Solid := by
  apply Reader.solid_skipping
  apply Reader.solid_ahead _ h
  apply Reader.solid_next
  intro _
  exact Reader.firm_pure nothing

theorem solid_further {α : Type} {more : Reader Char α} (h : more.Solid) (c : Char) (a : α) :
    (Reader.skipping isSpace (.next fun d =>
      if d = ',' then more else if d = c then .pure a else .fail)).Solid := by
  apply Reader.solid_skipping
  apply Reader.solid_next
  intro d
  apply Reader.firm_ite h.firm
  exact Reader.firm_ite (Reader.firm_pure a) Reader.solid_fail.firm

theorem reads_alone (left : Nat) : forall depth, (readValue left depth).Local ∧
    (readMembers left depth).Solid ∧ (readElems left depth).Solid := by
  induction left with
  | zero =>
      intro depth
      exact ⟨Reader.solid_fail.isLocal, Reader.solid_fail, Reader.solid_fail⟩
  | succ left ih =>
      intro depth
      refine ⟨?_, ?_, ?_⟩
      · apply Reader.local_skipping
        apply Reader.local_ahead
        · apply Reader.local_next
          intro _
          apply Reader.Solid.isLocal
          apply Reader.solid_ite Reader.solid_fail
          exact solid_closedBy _ _ ((ih (depth - 1)).right.left.map _)
        · apply Reader.local_ahead _ local_readScalar
          apply Reader.local_next
          intro _
          apply Reader.Solid.isLocal
          apply Reader.solid_ite Reader.solid_fail
          exact solid_closedBy _ _ ((ih (depth - 1)).right.right.map _)
      · apply solid_readName.andThen
        intro name
        apply Reader.Solid.firm
        apply (ih depth).left.andThen_solid
        intro v
        exact solid_further ((ih depth).right.left.map _) _ _
      · apply (ih depth).left.andThen_solid
        intro v
        exact solid_further ((ih depth).right.right.map _) _ _

/-!
## How many steps it takes
-/

theorem reads_within (left : Nat) : forall left' depth,
    Reader.Within left' (readValue left depth) (readValue left' depth) ∧
      Reader.Within left' (readMembers left depth) (readMembers left' depth) ∧
      Reader.Within left' (readElems left depth) (readElems left' depth) := by
  induction left with
  | zero =>
      intro left' depth
      refine ⟨?_, ?_, ?_⟩ <;>
        · intro text a rest hread
          cases hread
  | succ left ih =>
      intro left' depth
      cases left' with
      | zero =>
          rcases reads_alone (left + 1) depth with ⟨hvalue, hmembers, helems⟩
          exact ⟨Reader.within_none hvalue, Reader.within_none hmembers.isLocal,
            Reader.within_none helems.isLocal⟩
      | succ left' =>
          have hinner := ih left' (depth - 1)
          have hsame := ih left' depth
          refine ⟨?_, ?_, ?_⟩
          · apply Reader.Within.skipping
            apply Reader.within_ahead
            · apply Reader.within_next
              intro _
              apply Reader.within_ite (Reader.within_refl _ _)
              apply Reader.Within.skipping
              exact Reader.within_ahead (Reader.within_refl _ _) (hinner.right.left.map _)
            · apply Reader.within_ahead _ (Reader.within_refl _ _)
              apply Reader.within_next
              intro _
              apply Reader.within_ite (Reader.within_refl _ _)
              apply Reader.Within.skipping
              exact Reader.within_ahead (Reader.within_refl _ _) (hinner.right.right.map _)
          · apply Reader.within_after solid_readName.isLocal
            intro name
            apply hsame.left.andThen (reads_alone left depth).left
            · intro v
              apply Reader.Within.skipping
              apply Reader.within_next
              intro c
              exact Reader.within_ite (hsame.right.left.map _) (Reader.within_refl _ _)
            · intro v
              exact solid_further ((reads_alone left depth).right.left.map _) _ _
          · apply hsame.left.andThen (reads_alone left depth).left
            · intro v
              apply Reader.Within.skipping
              apply Reader.within_next
              intro c
              exact Reader.within_ite (hsame.right.right.map _) (Reader.within_refl _ _)
            · intro v
              exact solid_further ((reads_alone left depth).right.right.map _) _ _

/-!
## Where an object ends
-/

def isASCII (c : Char) : Bool := decide (c.toNat < 0x80)

theorem closes_closedBy {α : Type} {c : Char} (hc : isASCII c = true) (nothing : α)
    {read : Reader Char α} (h : read.Closes isASCII) :
    (closedBy c nothing read).Closes isASCII := by
  apply Reader.closes_skipping
  intro text a rest hread
  cases text with
  | nil => exact h [] a rest hread
  | cons d text =>
      by_cases hd : d = c
      · rw [Reader.ahead_pos (by simpa using hd)] at hread
        cases hread
        exact ⟨[], d, hd ▸ hc, rfl⟩
      · rw [Reader.ahead_neg (by simpa using hd)] at hread
        exact h _ a rest hread

theorem closes_further {α : Type} {more : Reader Char α} (h : more.Closes isASCII) {c : Char}
    (hc : isASCII c = true) (a : α) :
    (Reader.skipping isSpace (.next fun d =>
      if d = ',' then more else if d = c then .pure a else .fail)).Closes isASCII := by
  apply Reader.closes_skipping
  apply Reader.closes_next
  intro d
  by_cases hcomma : d = ','
  · rw [if_pos hcomma]
    exact Or.inl h
  · rw [if_neg hcomma]
    by_cases hd : d = c
    · rw [if_pos hd]
      exact Or.inr ⟨hd ▸ hc, a, rfl⟩
    · rw [if_neg hd]
      exact Or.inl (Reader.closes_fail _)

theorem closes_brackets (left : Nat) : forall depth,
    (readMembers left depth).Closes isASCII ∧ (readElems left depth).Closes isASCII := by
  induction left with
  | zero =>
      intro depth
      exact ⟨Reader.closes_fail _, Reader.closes_fail _⟩
  | succ left ih =>
      intro depth
      constructor
      · apply Reader.closes_andThen solid_readName.isLocal
        intro name
        apply Reader.closes_andThen (reads_alone left depth).left
        intro v
        exact closes_further ((ih depth).left.map _) (by decide) _
      · apply Reader.closes_andThen (reads_alone left depth).left
        intro v
        exact closes_further ((ih depth).right.map _) (by decide) _

theorem closes_scanString : Reader.Closes isASCII scanString := by
  intro text
  induction hlength : text.length using Nat.strong_induction_on generalizing text with
  | h n ih =>
      intro ps rest hread
      rcases scanString_inv hread with ⟨rfl, rfl⟩ | ⟨p, c, used, left, ps', rfl, hleft, rfl, _⟩
      · exact ⟨[], '"', by decide, rfl⟩
      · have hless : left.length < n := by
          rw [← hlength, List.length_append, List.length_cons]
          exact Nat.lt_add_of_pos_left (Nat.succ_pos _)
        rcases ih _ hless left rfl ps' rest hleft with ⟨used', d, hd, rfl⟩
        exact ⟨c :: used ++ used', d, hd, by simp⟩

theorem closes_readWord (v : Json) {word : List Char} (hne : word ≠ [])
    (hword : forall c, c ∈ word -> isASCII c = true) : (readWord v word).Closes isASCII := by
  induction word with
  | nil => exact absurd rfl hne
  | cons c word ih =>
      apply Reader.closes_next
      intro d
      by_cases hd : d = c
      · rw [if_pos hd]
        cases word with
        | nil => exact Or.inr ⟨hd ▸ hword c List.mem_cons_self, v, rfl⟩
        | cons e word =>
            exact Or.inl (ih (List.cons_ne_nil _ _)
              fun e' he' => hword e' (List.mem_cons_of_mem c he'))
      · rw [if_neg hd]
        exact Or.inl (Reader.closes_fail _)

def Json.complete : Json -> Bool
  | .int _ => false
  | .float _ => false
  | _ => true

theorem complete_of_decodeStruct {α : Type} {set : String -> Json -> α -> Option α}
    {old a : α} {v : Json} (h : decodeStruct set old v = some a) : v.complete = true := by
  cases v with
  | null => rfl
  | obj members => rfl
  | _ => cases h

theorem readNumber_kind (text : List Char) (v : Json) (rest : List Char)
    (hread : readNumber text = some (v, rest)) : v.complete = false := by
  have hvalue : forall sign text, readSigned sign text = some (v, rest) ->
      v.complete = false := by
    intro sign text hsigned
    rcases Reader.andThen_inv hsigned with ⟨number, between, _, hgiven⟩
    rcases Option.map_eq_some_iff.mp hgiven with ⟨v', hv, heq⟩
    cases heq
    unfold numberValue at hv
    split at hv
    · rcases Option.map_eq_some_iff.mp hv with ⟨n, _, rfl⟩
      rfl
    · cases hv
      rfl
  unfold readNumber Reader.ahead at hread
  split at hread
  · cases text with
    | nil => cases hread
    | cons c text => exact hvalue _ _ hread
  · exact hvalue _ _ hread

theorem sealed_word (v : Json) {word : List Char} (hne : word ≠ [])
    (hword : word.all isASCII = true) :
    (readWord v word).Sealed Json.complete isASCII := by
  apply Reader.Solid.isSealed _ (closes_readWord v hne (List.all_eq_true.mp hword))
  cases word with
  | nil => exact absurd rfl hne
  | cons c word =>
      apply Reader.solid_next
      intro d
      exact Reader.firm_ite (firm_readWord v word) Reader.solid_fail.firm

theorem sealed_readScalar : readScalar.Sealed Json.complete isASCII := by
  apply Reader.sealed_ahead
  · apply Reader.Solid.isSealed
    · apply Reader.solid_next
      intro _
      exact solid_readString.firm
    · apply Reader.closes_next
      intro _
      exact Or.inl (closes_scanString.map _)
  · apply Reader.sealed_ahead (sealed_word _ (by decide) (by decide))
    apply Reader.sealed_ahead (sealed_word _ (by decide) (by decide))
    apply Reader.sealed_ahead (sealed_word _ (by decide) (by decide))
    exact Reader.sealed_of_never readNumber_kind

theorem sealed_readValue (left depth : Nat) :
    (readValue left depth).Sealed Json.complete isASCII := by
  cases left with
  | zero =>
      apply Reader.sealed_of_never
      intro text v rest hread
      cases hread
  | succ left =>
      have hsealed : forall {c : Char} {nothing : Json} {read : Reader Char Json},
          isASCII c = true -> read.Solid -> read.Closes isASCII ->
          (Reader.next fun _ =>
            if depth = 0 then .fail else closedBy c nothing read).Sealed
            Json.complete isASCII := by
        intro c nothing read hc hsolid hcloses
        apply Reader.Solid.isSealed
        · apply Reader.solid_next
          intro _
          exact Reader.firm_ite Reader.solid_fail.firm (solid_closedBy _ _ hsolid).firm
        · apply Reader.closes_next
          intro _
          left
          split
          · exact Reader.closes_fail _
          · exact closes_closedBy hc _ hcloses
      rcases reads_alone left (depth - 1) with ⟨_, hmembers, helems⟩
      rcases closes_brackets left (depth - 1) with ⟨hbrace, hbracket⟩
      apply Reader.sealed_skipping
      apply Reader.sealed_ahead (hsealed (by decide) (hmembers.map _) (hbrace.map _))
      apply Reader.sealed_ahead (hsealed (by decide) (helems.map _) (hbracket.map _))
      exact sealed_readScalar

/-!
## Texts that were cut off
-/

theorem readFirst_alone {text rest : List Char} {v : Json}
    (hread : readFirst text = some (v, rest)) (hv : v.complete = true) :
    exists used c, isASCII c = true ∧ text = used ++ c :: rest ∧
      forall more, readFirst (used ++ c :: more) = some (v, more) := by
  rcases sealed_readValue _ _ text v rest hread hv with ⟨used, c, hc, htext, hmore⟩
  refine ⟨used, c, hc, htext, ?_⟩
  intro more
  apply (reads_within _ _ _).left _ v more (hmore more)
  omega

theorem readFirst_cut {s : String} {raw : Bytes} (hraw : raw <+: utf8 s) {v : Json}
    {rest : List Char} (hread : readFirst (runes raw) = some (v, rest))
    (hv : v.complete = true) :
    exists missing, readFirst s.toList = some (v, missing) ∧ (missing = [] -> raw = utf8 s) := by
  rcases runes_cut hraw with ⟨part, missing, junk, htext, hruns, hjunk, hall⟩
  rcases readFirst_alone hread hv with ⟨used, c, hc, hused, hmore⟩
  -- The last character that was read is no part of a character that was cut in two.
  have hnot : c ∉ junk := by
    intro hmem
    exact Nat.not_lt.mpr (hjunk c hmem) (of_decide_eq_true hc)
  have hpart : exists after, part = used ++ c :: after := by
    rw [hruns] at hused
    rcases List.append_eq_append_iff.mp hused with ⟨u, _, hjunked⟩ | ⟨u, hu, hrest⟩
    · exact absurd (hjunked ▸ List.mem_append_right _ List.mem_cons_self) hnot
    · cases u with
      | nil =>
          rw [List.nil_append] at hrest
          exact absurd (hrest ▸ List.mem_cons_self) hnot
      | cons d after =>
          cases hrest
          exact ⟨after, hu⟩
  rcases hpart with ⟨after, rfl⟩
  refine ⟨after ++ missing, ?_, ?_⟩
  · rw [htext, List.append_assoc]
    exact hmore _
  · intro hnothing
    exact hall (List.append_eq_nil_iff.mp hnothing).right

theorem decodeFirst_part {s : String} {raw : Bytes} (hraw : raw <+: utf8 s) {broken : Bool}
    {v : Json} (hread : decodeFirst (runes raw) broken = some v) (hv : v.complete = true) :
    decodeFirst s.toList false = some v := by
  rcases Option.bind_eq_some_iff.mp hread with ⟨p, hp, hsome⟩
  dsimp only at hsome
  split at hsome
  · cases hsome
    rcases readFirst_cut hraw hp hv with ⟨missing, hfull, _⟩
    rw [decodeFirst, hfull, Option.bind_some]
    exact if_pos (by simp)
  · cases hsome

theorem readAll_part {s : String} {raw : Bytes} (hraw : raw <+: utf8 s) {v w : Json}
    (hread : readAll (runes raw) = some v) (hv : v.complete = true)
    (hwhole : readAll s.toList = some w) : w = v := by
  rcases Option.bind_eq_some_iff.mp hread with ⟨p, hp, hsome⟩
  rcases Option.bind_eq_some_iff.mp hwhole with ⟨q, hq, hsome'⟩
  dsimp only at hsome hsome'
  split at hsome
  · split at hsome'
    · cases hsome
      cases hsome'
      rcases readFirst_cut hraw hp hv with ⟨missing, hfull, _⟩
      rw [hq] at hfull
      cases hfull
      rfl
    · cases hsome'
  · cases hsome

theorem decodeFirst_cut {members : List (String × Json)}
    (h : Writable maxNestingDepth (.obj members)) {raw : Bytes}
    (hraw : raw <+: utf8 (String.ofList (Json.obj members).marshal)) {broken : Bool} {v : Json}
    (hread : decodeFirst (runes raw) broken = some v) (hv : v.complete = true) :
    raw = utf8 (String.ofList (Json.obj members).marshal) ∧ v = (Json.obj members).reread := by
  rcases Option.bind_eq_some_iff.mp hread with ⟨p, hp, hsome⟩
  dsimp only at hsome
  split at hsome
  · cases hsome
    rcases readFirst_cut hraw hp hv with ⟨missing, hfull, hall⟩
    have hmarshal := readFirst_marshal h delimited_nil
    rw [List.append_nil] at hmarshal
    rw [String.toList_ofList, hmarshal, Option.some.injEq, Prod.mk.injEq] at hfull
    exact ⟨hall hfull.right.symm, hfull.left.symm⟩
  · cases hsome

end Net
end Telemux
