import Mathlib.Algebra.Order.Ring.Nat
import Telemux.Net.Json
import Telemux.Text.Reader

/-!
# Strings as package `encoding/json` quotes them

A quoted string is read in two steps, as the package does it: the scanner takes
it apart up to the closing quote, and what it found is decoded, with surrogates
put together.  The writer escapes what HTML gives a meaning to as well.
-/

namespace Telemux
namespace Net

open Text

inductive Piece where
  | plain (c : Char)
  | escaped (c : Char)
  | unit (n : Nat)
deriving DecidableEq, Repr

def Piece.isPlain : Piece -> Bool
  | .plain _ => true
  | _ => false

/-!
## Reading
-/

def hexValue (c : Char) : Option Nat :=
  if '0' ≤ c ∧ c ≤ '9' then some (c.toNat - '0'.toNat)
  else if 'a' ≤ c ∧ c ≤ 'f' then some (c.toNat - 'a'.toNat + 10)
  else if 'A' ≤ c ∧ c ≤ 'F' then some (c.toNat - 'A'.toNat + 10)
  else none

def getu4 (a b c d : Char) : Option Nat := do
  let a <- hexValue a
  let b <- hexValue b
  let c <- hexValue c
  let d <- hexValue d
  return ((a * 16 + b) * 16 + c) * 16 + d

def unescaped (c : Char) : Option Char :=
  if c = '"' ∨ c = '\\' ∨ c = '/' then some c
  else if c = 'b' then some '\x08'
  else if c = 'f' then some '\x0c'
  else if c = 'n' then some '\n'
  else if c = 'r' then some '\r'
  else if c = 't' then some '\t'
  else none

def found (p : Piece) (r : Option (List Piece × List Char)) : Option (List Piece × List Char) :=
  r.map fun found => (p :: found.1, found.2)

def scanString : Reader Char (List Piece)
  | [] => none
  | c :: rest =>
      if c = '"' then some ([], rest)
      else if c = '\\' then
        match rest with
        | [] => none
        | e :: rest =>
            if e = 'u' then
              match rest with
              | a :: b :: c :: d :: rest =>
                  (getu4 a b c d).bind fun n => found (.unit n) (scanString rest)
              | _ => none
            else (unescaped e).bind fun c => found (.escaped c) (scanString rest)
      else if c < ' ' then none
      else found (.plain c) (scanString rest)

/-- `utf16.IsSurrogate`. -/
def IsSurrogate (n : Nat) : Bool :=
  decide (0xd800 ≤ n) && decide (n < 0xe000)

/-- `utf16.DecodeRune`, of two code units that are a pair. -/
def surrogatePair (n m : Nat) : Option Char :=
  if 0xd800 ≤ n ∧ n < 0xdc00 ∧ 0xdc00 ≤ m ∧ m < 0xe000 then
    some (Char.ofNat ((n - 0xd800) * 0x400 + (m - 0xdc00) + 0x10000))
  else none

/-- A code unit by itself; a surrogate stands for U+FFFD. -/
def unitChar (n : Nat) : Char :=
  if IsSurrogate n then '\ufffd' else Char.ofNat n

def decodePieces : List Piece -> List Char
  | [] => []
  | .plain c :: ps => c :: decodePieces ps
  | .escaped c :: ps => c :: decodePieces ps
  | .unit n :: .unit m :: ps =>
      match surrogatePair n m with
      | some c => c :: decodePieces ps
      | none => unitChar n :: decodePieces (.unit m :: ps)
  | .unit n :: ps => unitChar n :: decodePieces ps

def stringValue (ps : List Piece) : Json :=
  let s := String.ofList (decodePieces ps)
  if ps.all Piece.isPlain then .str s else .escaped s

def readString : Reader Char Json :=
  Reader.map stringValue scanString

/-!
## Writing
-/

def letterFor (c : Char) : Option Char :=
  if c = '"' ∨ c = '\\' then some c
  else if c = '\x08' then some 'b'
  else if c = '\x0c' then some 'f'
  else if c = '\n' then some 'n'
  else if c = '\r' then some 'r'
  else if c = '\t' then some 't'
  else none

def isUnsafe (c : Char) : Bool :=
  decide (c < ' ') || decide (c = '<') || decide (c = '>') || decide (c = '&')

def isSeparator (c : Char) : Bool :=
  decide (c = '\u2028') || decide (c = '\u2029')

/-- `appendString`, for one character. -/
def quoteChar (c : Char) : List Char :=
  match letterFor c with
  | some e => ['\\', e]
  | none =>
      if isUnsafe c then
        ['\\', 'u', '0', '0', Nat.digitChar (c.toNat / 16), Nat.digitChar (c.toNat % 16)]
      else if isSeparator c then ['\\', 'u', '2', '0', '2', Nat.digitChar (c.toNat % 16)]
      else [c]

def quote (s : String) : List Char :=
  '"' :: (s.toList.flatMap quoteChar ++ ['"'])

/-!
## What is written is read
-/

def pieceOf (c : Char) : Piece :=
  if (letterFor c).isSome then .escaped c
  else if isUnsafe c || isSeparator c then .unit c.toNat
  else .plain c

def requoted (s : String) : Json :=
  if (s.toList.map pieceOf).all Piece.isPlain then .str s else .escaped s

theorem hexValue_digitChar {n : Nat} (h : n < 16) : hexValue (Nat.digitChar n) = some n := by
  have hall : forall n : Fin 16, hexValue (Nat.digitChar n) = some n.val := by decide
  exact hall ⟨n, h⟩

theorem scanString_unit {a b c d : Char} {n : Nat} (h : getu4 a b c d = some n)
    (rest : List Char) :
    scanString ('\\' :: 'u' :: a :: b :: c :: d :: rest) = found (.unit n) (scanString rest) := by
  rw [scanString, if_neg (by decide), if_pos rfl, if_pos rfl, h, Option.bind_some]

theorem scanString_escaped {e c : Char} (h : unescaped e = some c) (hu : e ≠ 'u')
    (rest : List Char) :
    scanString ('\\' :: e :: rest) = found (.escaped c) (scanString rest) := by
  rw [scanString.eq_def]
  dsimp only
  rw [if_neg (by decide), if_pos rfl, if_neg hu, h, Option.bind_some]

theorem scanString_plain {c : Char} (hquote : c ≠ '"') (hslash : c ≠ '\\') (hspace : ¬ c < ' ')
    (rest : List Char) : scanString (c :: rest) = found (.plain c) (scanString rest) := by
  rw [scanString.eq_def]
  dsimp only
  rw [if_neg hquote, if_neg hslash, if_neg hspace]

theorem getu4_small {n : Nat} (h : n < 256) :
    getu4 '0' '0' (Nat.digitChar (n / 16)) (Nat.digitChar (n % 16)) = some n := by
  unfold getu4
  rw [hexValue_digitChar (Nat.mod_lt n (by decide)),
    hexValue_digitChar (Nat.div_lt_of_lt_mul h)]
  have hvalue : ((0 * 16 + 0) * 16 + n / 16) * 16 + n % 16 = n := by omega
  exact congrArg some hvalue

theorem unescaped_letterFor {c e : Char} (h : letterFor c = some e) :
    unescaped e = some c ∧ e ≠ 'u' := by
  unfold letterFor at h
  split at h
  · rename_i hself
    cases h
    rcases hself with rfl | rfl <;> decide
  · split at h
    · rename_i hc
      cases h
      rw [hc]
      decide
    · split at h
      · rename_i hc
        cases h
        rw [hc]
        decide
      · split at h
        · rename_i hc
          cases h
          rw [hc]
          decide
        · split at h
          · rename_i hc
            cases h
            rw [hc]
            decide
          · split at h
            · rename_i hc
              cases h
              rw [hc]
              decide
            · cases h

theorem isUnsafe_lt {c : Char} (h : isUnsafe c = true) : c.toNat < 256 := by
  unfold isUnsafe at h
  simp only [Bool.or_eq_true, decide_eq_true_eq, or_assoc] at h
  rcases h with hspace | rfl | rfl | rfl
  · exact Nat.lt_trans (show c.toNat < 32 from hspace) (by decide)
  · decide
  · decide
  · decide

theorem isSeparator_cases {c : Char} (h : isSeparator c = true) :
    c = '\u2028' ∨ c = '\u2029' := by
  simpa [isSeparator] using h

theorem scanString_quoteChar (c : Char) (rest : List Char) :
    scanString (quoteChar c ++ rest) = found (pieceOf c) (scanString rest) := by
  unfold quoteChar pieceOf
  cases hletter : letterFor c with
  | some e =>
      have he := unescaped_letterFor hletter
      exact scanString_escaped he.left he.right rest
  | none =>
      dsimp only
      by_cases hescaped : isUnsafe c = true
      · rw [if_pos hescaped, if_neg (by simp), if_pos (by simp [hescaped])]
        exact scanString_unit (getu4_small (isUnsafe_lt hescaped)) rest
      · rw [if_neg hescaped]
        by_cases hseparator : isSeparator c = true
        · rw [if_pos hseparator, if_neg (by simp), if_pos (by simp [hseparator])]
          rcases isSeparator_cases hseparator with rfl | rfl
          · exact scanString_unit (by decide) rest
          · exact scanString_unit (by decide) rest
        · rw [if_neg hseparator, if_neg (by simp), if_neg (by simp [hescaped, hseparator])]
          have hself : ¬ (c = '"' ∨ c = '\\') := by
            intro hself
            rw [letterFor, if_pos hself] at hletter
            cases hletter
          have hspace : ¬ c < ' ' := by
            intro hspace
            exact hescaped (by simp [isUnsafe, hspace])
          exact scanString_plain (fun h => hself (Or.inl h)) (fun h => hself (Or.inr h)) hspace rest

theorem scanString_close (rest : List Char) : scanString ('"' :: rest) = some ([], rest) := by
  rw [scanString.eq_def]
  dsimp only
  rw [if_pos rfl]

theorem scanString_quoted (cs rest : List Char) :
    scanString (cs.flatMap quoteChar ++ '"' :: rest) = some (cs.map pieceOf, rest) := by
  induction cs with
  | nil => exact scanString_close rest
  | cons c cs ih =>
      rw [List.flatMap_cons, List.append_assoc, scanString_quoteChar, ih]
      rfl

theorem isSurrogate_of_coded {c : Char} (h : (isUnsafe c || isSeparator c) = true) :
    IsSurrogate c.toNat = false := by
  rcases (Bool.or_eq_true _ _).mp h with hescaped | hseparator
  · have hlt := isUnsafe_lt hescaped
    have hnot : ¬ 0xd800 ≤ c.toNat := by omega
    simp [IsSurrogate, hnot]
  · rcases isSeparator_cases hseparator with rfl | rfl <;> decide

theorem surrogatePair_of_not {n : Nat} (h : IsSurrogate n = false) (m : Nat) :
    surrogatePair n m = none := by
  unfold surrogatePair
  rw [if_neg]
  intro hpair
  have hin : IsSurrogate n = true := by
    have hlt : n < 0xe000 := by omega
    simp [IsSurrogate, hpair.left, hlt]
  rw [h] at hin
  cases hin

theorem decodePieces_unit {n : Nat} (h : IsSurrogate n = false) (ps : List Piece) :
    decodePieces (.unit n :: ps) = Char.ofNat n :: decodePieces ps := by
  have hchar : unitChar n = Char.ofNat n := by
    rw [unitChar, h]
    rfl
  rw [decodePieces.eq_def]
  split
  · rename_i heq
    cases heq
  · rename_i heq
    cases heq
  · rename_i heq
    cases heq
  · rename_i heq
    cases heq
    rw [surrogatePair_of_not h, hchar]
  · rename_i heq
    cases heq
    rw [hchar]

theorem decodePieces_pieceOf (cs : List Char) : decodePieces (cs.map pieceOf) = cs := by
  induction cs with
  | nil => rfl
  | cons c cs ih =>
      rw [List.map_cons, pieceOf]
      by_cases hletter : (letterFor c).isSome = true
      · rw [if_pos hletter, decodePieces, ih]
      · rw [if_neg hletter]
        by_cases hcoded : (isUnsafe c || isSeparator c) = true
        · rw [if_pos hcoded, decodePieces_unit (isSurrogate_of_coded hcoded), ih,
            Char.ofNat_toNat]
        · rw [if_neg hcoded, decodePieces, ih]

theorem readString_quoted (s : String) (rest : List Char) :
    readString (s.toList.flatMap quoteChar ++ '"' :: rest) = some (requoted s, rest) := by
  unfold readString requoted
  rw [Reader.map_some (scanString_quoted s.toList rest)]
  dsimp only [stringValue]
  rw [decodePieces_pieceOf, String.ofList_toList]

theorem decodeString_requoted (old s : String) : decodeString old (requoted s) = some s := by
  unfold requoted
  split <;> rfl

/-!
## A string is read by itself
-/

theorem found_inv {p : Piece} {r : Option (List Piece × List Char)} {ps : List Piece}
    {rest : List Char} (h : found p r = some (ps, rest)) :
    exists ps', r = some (ps', rest) ∧ ps = p :: ps' := by
  unfold found at h
  rcases Option.map_eq_some_iff.mp h with ⟨q, hq, heq⟩
  cases heq
  exact ⟨q.1, hq, rfl⟩

theorem scanString_inv {text : List Char} {ps : List Piece} {rest : List Char}
    (h : scanString text = some (ps, rest)) :
    text = '"' :: rest ∧ ps = [] ∨
      exists p c used left ps', text = c :: used ++ left ∧ scanString left = some (ps', rest) ∧
        ps = p :: ps' ∧ forall more, scanString (c :: used ++ more) = found p (scanString more) := by
  cases text with
  | nil => cases h
  | cons c text =>
      unfold scanString at h
      split at h
      · next hquote =>
          cases h
          exact .inl ⟨congrArg (· :: _) hquote, rfl⟩
      split at h
      · next hslash =>
          subst hslash
          right
          cases text with
          | nil => cases h
          | cons e text =>
              dsimp only at h
              split at h
              · next hu =>
                  subst hu
                  split at h
                  · next a b c d left =>
                      rcases Option.bind_eq_some_iff.mp h with ⟨n, hn, hfound⟩
                      rcases found_inv hfound with ⟨ps', hread, heq⟩
                      exact ⟨.unit n, '\\', ['u', a, b, c, d], left, ps', rfl, hread, heq,
                        scanString_unit hn⟩
                  · cases h
              · next hu =>
                  rcases Option.bind_eq_some_iff.mp h with ⟨c, hc, hfound⟩
                  rcases found_inv hfound with ⟨ps', hread, heq⟩
                  exact ⟨.escaped c, '\\', [e], text, ps', rfl, hread, heq,
                    scanString_escaped hc hu⟩
      · next hquote hslash =>
          split at h
          · cases h
          · next hspace =>
              rcases found_inv h with ⟨ps', hread, heq⟩
              exact .inr ⟨.plain c, c, [], text, ps', rfl, hread, heq,
                scanString_plain hquote hslash hspace⟩

theorem solid_scanString : Reader.Solid scanString := by
  intro text
  induction hlength : text.length using Nat.strong_induction_on generalizing text with
  | h n ih =>
      intro ps rest hread
      rcases scanString_inv hread with ⟨rfl, rfl⟩ | ⟨p, c, used, left, ps', rfl, hleft, rfl, hmore⟩
      · exact ⟨'"', [], rfl, scanString_close⟩
      · have hless : left.length < n := by
          rw [← hlength, List.length_append, List.length_cons]
          exact Nat.lt_add_of_pos_left (Nat.succ_pos _)
        rcases ih _ hless left rfl ps' rest hleft with ⟨d, more, rfl, hagain⟩
        refine ⟨c, used ++ d :: more, by simp, ?_⟩
        intro tail
        have hcons : c :: (used ++ d :: more) ++ tail = c :: used ++ (d :: more ++ tail) := by
          simp
        rw [hcons, hmore, hagain]
        rfl

theorem solid_readString : readString.Solid := solid_scanString.map stringValue

example : decodePieces [.unit 0xd83d, .unit 0xde00, .unit 0xd83d, .plain 'a'] =
    [Char.ofNat 0x1f600, '\ufffd', 'a'] := by
  decide

end Net
end Telemux
