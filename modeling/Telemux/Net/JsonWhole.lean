import Telemux.Net.JsonParts

/-!
# JSON from end to end

What a body is as a whole: UTF-8, one JSON value however deeply it is nested, and
nothing after it but space.  A `json.Decoder` looks at less: it reads the first
value, nested to a depth of 10000, and takes any bytes for characters.
-/

namespace Telemux
namespace Net

open Text

def readWhole (text : List Char) : Option Json :=
  (readValue (text.length + 1) (text.length + maxNestingDepth) text).bind fun (v, rest) =>
    if skipSpace rest = [] then some v else none

def wholeBody (raw : Bytes) : Option Json :=
  if utf8 (String.ofList (runes raw)) = raw then readWhole (runes raw) else none

/-!
## What is nested less deeply
-/

theorem reads_deeper (left : Nat) : forall k depth depth', depth ≤ depth' ->
    Reader.Within k (readValue left depth) (readValue left depth') ∧
      Reader.Within k (readMembers left depth) (readMembers left depth') ∧
      Reader.Within k (readElems left depth) (readElems left depth') := by
  induction left with
  | zero =>
      intro k depth depth' _
      refine ⟨?_, ?_, ?_⟩ <;>
        · intro text a rest hread
          cases hread
  | succ left ih =>
      intro k depth depth' hdepth
      cases k with
      | zero =>
          rcases reads_alone (left + 1) depth with ⟨hvalue, hmembers, helems⟩
          exact ⟨Reader.within_none hvalue, Reader.within_none hmembers.isLocal,
            Reader.within_none helems.isLocal⟩
      | succ k =>
          have hinner := ih k (depth - 1) (depth' - 1) (Nat.sub_le_sub_right hdepth 1)
          have hsame := ih k depth depth' hdepth
          -- A bracket that may be opened may be opened where more is allowed.
          have hopens : forall {r r' : Reader Char Json}, Reader.Within k r r' ->
              Reader.Within k (if depth = 0 then .fail else r)
                (if depth' = 0 then .fail else r') := by
            intro r r' hr text a rest hread hlength
            by_cases hzero : depth = 0
            · rw [if_pos hzero] at hread
              cases hread
            · have hzero' : ¬ depth' = 0 := by omega
              rw [if_neg hzero] at hread
              rw [if_neg hzero']
              exact hr text a rest hread hlength
          refine ⟨?_, ?_, ?_⟩
          · apply Reader.Within.skipping
            apply Reader.within_ahead
            · apply Reader.within_next
              intro _
              apply hopens
              apply Reader.Within.skipping
              exact Reader.within_ahead (Reader.within_refl _ _) (hinner.right.left.map _)
            · apply Reader.within_ahead _ (Reader.within_refl _ _)
              apply Reader.within_next
              intro _
              apply hopens
              apply Reader.Within.skipping
              exact Reader.within_ahead (Reader.within_refl _ _) (hinner.right.right.map _)
          · apply Reader.within_after solid_readName.isLocal
            intro name
            apply hsame.left.andThen (reads_alone left depth).left
            · intro v
              apply Reader.Within.skipping
              apply Reader.within_next
              intro c
              exact Reader.within_ite (hsame.right.left.map _) (Reader.within_refl _ _)
            · intro v
              exact solid_further ((reads_alone left depth).right.left.map _) _ _
          · apply hsame.left.andThen (reads_alone left depth).left
            · intro v
              apply Reader.Within.skipping
              apply Reader.within_next
              intro c
              exact Reader.within_ite (hsame.right.right.map _) (Reader.within_refl _ _)
            · intro v
              exact solid_further ((reads_alone left depth).right.right.map _) _ _

theorem readWhole_first {text rest : List Char} {v : Json}
    (h : readFirst text = some (v, rest)) :
    readWhole text = if skipSpace rest = [] then some v else none := by
  have hdeeper := (reads_deeper (text.length + 1) (text.length + 1) maxNestingDepth
    (text.length + maxNestingDepth) (Nat.le_add_left _ _)).left
  have hread := hdeeper text v rest h (by omega)
  unfold readWhole
  rw [hread, Option.bind_some]

theorem decodeFirst_whole (text : List Char) :
    decodeFirst text false = (readFirst text).map Prod.fst := by
  unfold decodeFirst
  cases readFirst text with
  | none => rfl
  | some p => exact if_pos (by simp)

theorem wholeBody_first {raw : Bytes} {v w : Json} (hwhole : wholeBody raw = some w)
    (hfirst : decodeFirst (runes raw) false = some v) : w = v := by
  rw [decodeFirst_whole] at hfirst
  rcases Option.map_eq_some_iff.mp hfirst with ⟨p, hread, rfl⟩
  unfold wholeBody at hwhole
  split at hwhole
  · rw [readWhole_first hread] at hwhole
    split at hwhole
    · cases hwhole
      rfl
    · cases hwhole
  · cases hwhole

theorem wholeBody_marshal {v : Json} (h : Writable maxNestingDepth v) :
    wholeBody (utf8 (String.ofList v.marshal)) = some v.reread ∧
      decodeFirst (runes (utf8 (String.ofList v.marshal))) false = some v.reread := by
  have hread := readFirst_marshal h delimited_nil
  rw [List.append_nil] at hread
  unfold wholeBody
  rw [runes_utf8, String.ofList_toList, if_pos rfl, String.toList_ofList, readWhole_first hread,
    decodeFirst_whole, hread]
  exact ⟨rfl, rfl⟩

end Net
end Telemux
