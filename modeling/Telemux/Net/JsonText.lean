import Telemux.Net.JsonNumber
import Telemux.Net.Quoted
import Telemux.Net.Runes

/-!
# JSON texts

The scanner and the writer of package `encoding/json`, over the characters of a
text.  A value may be nested to a depth of 10000.  The reader is given how many
steps it may take at most; the length of the text is always enough.
-/

namespace Telemux
namespace Net

open Text

/-!
## Reading
-/

def isSpace (c : Char) : Bool :=
  decide (c = ' ') || decide (c = '\t') || decide (c = '\r') || decide (c = '\n')

def skipSpace (text : List Char) : List Char :=
  text.dropWhile isSpace

def expect (c : Char) : Reader Char Unit :=
  .skipping isSpace (.next fun d => if d = c then .pure () else .fail)

def readWord (v : Json) : List Char -> Reader Char Json
  | [] => .pure v
  | c :: word => .next fun d => if d = c then readWord v word else .fail

def readName : Reader Char String :=
  (expect '"').andThen fun _ =>
    Reader.andThen scanString fun name =>
      (expect ':').map fun _ => String.ofList (decodePieces name)

/-- What stands between brackets: nothing, or what `read` reads with the closing one. -/
def closedBy {α : Type} (c : Char) (nothing : α) (read : Reader Char α) : Reader Char α :=
  .skipping isSpace (.ahead (fun d => decide (d = c)) (.next fun _ => .pure nothing) read)

def readScalar : Reader Char Json :=
  .ahead (fun c => decide (c = '"')) (.next fun _ => readString)
    (.ahead (fun c => decide (c = 'n')) (readWord .null ['n', 'u', 'l', 'l'])
      (.ahead (fun c => decide (c = 't')) (readWord (.bool true) ['t', 'r', 'u', 'e'])
        (.ahead (fun c => decide (c = 'f')) (readWord (.bool false) ['f', 'a', 'l', 's', 'e'])
          readNumber)))

mutual

/-- A value, nested to at most `depth`. -/
def readValue : Nat -> Nat -> Reader Char Json
  | 0, _ => .fail
  | left + 1, depth =>
      .skipping isSpace
        (.ahead (fun c => decide (c = '\x7b'))
          (.next fun _ =>
            if depth = 0 then .fail
            else closedBy '\x7d' (.obj []) ((readMembers left (depth - 1)).map Json.obj))
          (.ahead (fun c => decide (c = '['))
            (.next fun _ =>
              if depth = 0 then .fail
              else closedBy ']' (.arr []) ((readElems left (depth - 1)).map Json.arr))
            readScalar))

def readMembers : Nat -> Nat -> Reader Char (List (String × Json))
  | 0, _ => .fail
  | left + 1, depth =>
      readName.andThen fun name =>
        (readValue left depth).andThen fun v =>
          .skipping isSpace
            (.next fun c =>
              if c = ',' then (readMembers left depth).map fun members => (name, v) :: members
              else if c = '\x7d' then .pure [(name, v)]
              else .fail)

def readElems : Nat -> Nat -> Reader Char (List Json)
  | 0, _ => .fail
  | left + 1, depth =>
      (readValue left depth).andThen fun v =>
        .skipping isSpace
          (.next fun c =>
            if c = ',' then (readElems left depth).map fun elems => v :: elems
            else if c = ']' then .pure [v]
            else .fail)

end

/-- `maxNestingDepth`. -/
def maxNestingDepth : Nat := 10000

def readFirst : Reader Char Json := fun text =>
  readValue (text.length + 1) maxNestingDepth text

def readAll (text : List Char) : Option Json :=
  (readFirst text).bind fun (v, rest) => if skipSpace rest = [] then some v else none

def Json.closed : Json -> Bool
  | .arr _ => true
  | .obj _ => true
  | _ => false

/-- `Decode`, which needs to see that a value has ended. -/
def decodeFirst (text : List Char) (broken : Bool) : Option Json :=
  (readFirst text).bind fun (v, rest) =>
    if v.closed || !broken || !rest.isEmpty then some v else none

/-- A `json.Decoder` on what has arrived of a body. -/
@[reducible] def bodyTexts : JsonStream where
  first raw broken := decodeFirst (runes raw) broken

/-!
## Writing
-/

mutual

/-- `json.Marshal`. -/
def Json.marshal : Json -> List Char
  | .null => ['n', 'u', 'l', 'l']
  | .bool true => ['t', 'r', 'u', 'e']
  | .bool false => ['f', 'a', 'l', 's', 'e']
  | .int n => (toString n).toList
  | .float literal => literal.toList
  | .str s => quote s
  | .escaped s => quote s
  | .arr elems => '[' :: (marshalElems elems ++ [']'])
  | .obj members => '\x7b' :: (marshalMembers members ++ ['\x7d'])

def marshalElems : List Json -> List Char
  | [] => []
  | v :: rest => v.marshal ++ (if rest = [] then [] else ',' :: marshalElems rest)

def marshalMembers : List (String × Json) -> List Char
  | [] => []
  | (name, v) :: rest =>
      quote name ++ ':' :: (v.marshal ++ (if rest = [] then [] else ',' :: marshalMembers rest))

end

mutual

/-- A value as it is read once it has been written. -/
def Json.reread : Json -> Json
  | .str s => requoted s
  | .escaped s => requoted s
  | .arr elems => .arr (rereadElems elems)
  | .obj members => .obj (rereadMembers members)
  | v => v

def rereadElems : List Json -> List Json
  | [] => []
  | v :: rest => v.reread :: rereadElems rest

def rereadMembers : List (String × Json) -> List (String × Json)
  | [] => []
  | (name, v) :: rest => (name, v.reread) :: rereadMembers rest

end

/-!
## What is written is read
-/

inductive Writable : Nat -> Json -> Prop where
  | null (d : Nat) : Writable d .null
  | bool (d : Nat) (b : Bool) : Writable d (.bool b)
  | int (d : Nat) (n : Int) : Writable d (.int n)
  | str (d : Nat) (s : String) : Writable d (.str s)
  | escaped (d : Nat) (s : String) : Writable d (.escaped s)
  | arr {d : Nat} {elems : List Json} : (forall v, v ∈ elems -> Writable d v) ->
      Writable (d + 1) (.arr elems)
  | obj {d : Nat} {members : List (String × Json)} :
      (forall name v, (name, v) ∈ members -> Writable d v) -> Writable (d + 1) (.obj members)

theorem writable_strs {d : Nat} (members : List (String × String)) :
    Writable (d + 1) (.obj (members.map fun m => (m.1, .str m.2))) := by
  apply Writable.obj
  intro name v hmem
  rcases List.mem_map.mp hmem with ⟨_, _, heq⟩
  cases heq
  exact .str _ _

theorem expect_self {c : Char} (h : isSpace c = false) (rest : List Char) :
    expect c (c :: rest) = some ((), rest) := by
  rw [expect, Reader.skipping_cons h]
  exact congrFun (if_pos rfl) rest

theorem readName_quote (name : String) (rest : List Char) :
    readName (quote name ++ ':' :: rest) = some (name, rest) := by
  unfold readName quote
  rw [List.cons_append, List.append_assoc, Reader.andThen_some (expect_self (by decide) _)]
  rw [List.singleton_append, Reader.andThen_some (scanString_quoted name.toList _)]
  rw [Reader.map_some (expect_self (by decide) rest), decodePieces_pieceOf, String.ofList_toList]

theorem closedBy_nothing {α : Type} {c : Char} (h : isSpace c = false) (nothing : α)
    (read : Reader Char α) (rest : List Char) :
    closedBy c nothing read (c :: rest) = some (nothing, rest) := by
  rw [closedBy, Reader.skipping_cons h, Reader.ahead_pos (by simp)]
  rfl

theorem closedBy_read {α : Type} {c d : Char} (h : isSpace d = false) (hne : d ≠ c)
    (nothing : α) (read : Reader Char α) (rest : List Char) :
    closedBy c nothing read (d :: rest) = read (d :: rest) := by
  rw [closedBy, Reader.skipping_cons h, Reader.ahead_neg (by simpa using hne)]

def startsNumber (c : Char) : Prop := c.isDigit = true ∨ c = '-'

theorem startsNumber_ne {c e : Char} (h : startsNumber c) (hdigit : e.isDigit = false)
    (hminus : '-' ≠ e) : c ≠ e := by
  intro heq
  rcases h with hc | hc
  · rw [heq, hdigit] at hc
    cases hc
  · exact hminus (hc.symm.trans heq)

theorem startsNumber_not_space {c : Char} (h : startsNumber c) : isSpace c = false := by
  unfold isSpace
  rw [decide_eq_false (startsNumber_ne h rfl (by decide)),
    decide_eq_false (startsNumber_ne h rfl (by decide)),
    decide_eq_false (startsNumber_ne h rfl (by decide)),
    decide_eq_false (startsNumber_ne h rfl (by decide))]
  rfl

theorem toString_head (n : Int) :
    exists c rest, (toString n).toList = c :: rest ∧ startsNumber c := by
  cases n with
  | ofNat n =>
      have htext : (toString (Int.ofNat n)).toList = Nat.toDigits 10 n := by
        rw [show toString (Int.ofNat n) = Nat.repr n from rfl, Nat.toList_repr]
      cases hdigits : Nat.toDigits 10 n with
      | nil => exact absurd hdigits Nat.toDigits_ne_nil
      | cons c rest =>
          refine ⟨c, rest, htext.trans hdigits, Or.inl ?_⟩
          apply Nat.isDigit_of_mem_toDigits (b := 10) (n := n) (by decide) (by decide)
          rw [hdigits]
          exact List.mem_cons_self
  | negSucc n =>
      refine ⟨'-', Nat.toDigits 10 (n + 1), ?_, Or.inr rfl⟩
      rw [show toString (Int.negSucc n) = "-" ++ Nat.repr (n + 1) from rfl,
        String.toList_append, Nat.toList_repr]
      rfl

theorem marshal_head {d : Nat} {v : Json} (h : Writable d v) :
    exists c rest, v.marshal = c :: rest ∧ isSpace c = false ∧ c ≠ ']' := by
  cases h with
  | null => exact ⟨_, _, rfl, by decide, by decide⟩
  | bool d b => cases b <;> exact ⟨_, _, rfl, by decide, by decide⟩
  | str d s => exact ⟨_, _, rfl, by decide, by decide⟩
  | escaped d s => exact ⟨_, _, rfl, by decide, by decide⟩
  | arr helems => exact ⟨_, _, rfl, by decide, by decide⟩
  | obj hmembers => exact ⟨_, _, rfl, by decide, by decide⟩
  | int d n =>
      rcases toString_head n with ⟨c, rest, htext, hc⟩
      exact ⟨c, rest, htext, startsNumber_not_space hc, startsNumber_ne hc rfl (by decide)⟩

def ReadsBack (d : Nat) (v : Json) : Prop :=
  forall (left : Nat) (rest : List Char), v.marshal.length < left -> Delimited rest ->
    readValue left d (v.marshal ++ rest) = some (v.reread, rest)

theorem delimited_nil : Delimited [] := rfl

theorem delimited_cons {c : Char} (h : continuesNumber c = false) (rest : List Char) :
    Delimited (c :: rest) := h

theorem readElems_marshal {d : Nat} {elems : List Json} (hne : elems ≠ [])
    (hback : forall v, v ∈ elems -> ReadsBack d v) {left : Nat} {rest : List Char}
    (hleft : (marshalElems elems).length + 1 < left) :
    readElems left d (marshalElems elems ++ ']' :: rest) = some (rereadElems elems, rest) := by
  induction elems generalizing left with
  | nil => exact absurd rfl hne
  | cons v elems ih =>
      rw [marshalElems, List.length_append] at hleft
      cases left with
      | zero => cases hleft
      | succ left =>
          rw [readElems, marshalElems, List.append_assoc]
          have hv := hback v List.mem_cons_self
          by_cases hlast : elems = []
          · rw [if_pos hlast] at hleft ⊢
            rw [List.nil_append,
              Reader.andThen_some (hv left _ (by omega) (delimited_cons rfl rest)),
              Reader.skipping_cons (by decide), hlast]
            rfl
          · rw [if_neg hlast] at hleft ⊢
            rw [List.length_cons] at hleft
            rw [List.cons_append,
              Reader.andThen_some (hv left _ (by omega) (delimited_cons rfl _)),
              Reader.skipping_cons (by decide)]
            have hshorter : (marshalElems elems).length + 1 < left := by omega
            have hrest := ih hlast (fun w hw => hback w (List.mem_cons_of_mem v hw)) hshorter
            exact Reader.map_some hrest

theorem readMembers_marshal {d : Nat} {members : List (String × Json)} (hne : members ≠ [])
    (hback : forall name v, (name, v) ∈ members -> ReadsBack d v) {left : Nat}
    {rest : List Char} (hleft : (marshalMembers members).length < left) :
    readMembers left d (marshalMembers members ++ '\x7d' :: rest) =
      some (rereadMembers members, rest) := by
  induction members generalizing left with
  | nil => exact absurd rfl hne
  | cons member members ih =>
      rcases member with ⟨name, v⟩
      rw [marshalMembers, List.length_append, List.length_cons, List.length_append] at hleft
      cases left with
      | zero => cases hleft
      | succ left =>
          rw [readMembers, marshalMembers, List.append_assoc, List.cons_append,
            Reader.andThen_some (readName_quote name _), List.append_assoc]
          have hv := hback name v List.mem_cons_self
          by_cases hlast : members = []
          · rw [if_pos hlast] at hleft ⊢
            rw [List.nil_append,
              Reader.andThen_some (hv left _ (by omega) (delimited_cons rfl rest)),
              Reader.skipping_cons (by decide), hlast]
            rfl
          · rw [if_neg hlast] at hleft ⊢
            rw [List.length_cons] at hleft
            rw [List.cons_append,
              Reader.andThen_some (hv left _ (by omega) (delimited_cons rfl _)),
              Reader.skipping_cons (by decide)]
            have hshorter : (marshalMembers members).length < left := by omega
            have hrest := ih hlast (fun n w hw => hback n w (List.mem_cons_of_mem _ hw)) hshorter
            exact Reader.map_some hrest

/-!
One character tells which kind of value follows.
-/

theorem readValue_brace {left d : Nat} (rest : List Char) :
    readValue (left + 1) (d + 1) ('\x7b' :: rest) =
      closedBy '\x7d' (.obj []) ((readMembers left d).map Json.obj) rest := by
  rw [readValue, Reader.skipping_cons (by decide), Reader.ahead_pos (by decide), Reader.next,
    if_neg (Nat.succ_ne_zero d), Nat.add_sub_cancel]

theorem readValue_bracket {left d : Nat} (rest : List Char) :
    readValue (left + 1) (d + 1) ('[' :: rest) =
      closedBy ']' (.arr []) ((readElems left d).map Json.arr) rest := by
  rw [readValue, Reader.skipping_cons (by decide), Reader.ahead_neg (by rfl),
    Reader.ahead_pos (by decide), Reader.next, if_neg (Nat.succ_ne_zero d), Nat.add_sub_cancel]

theorem readValue_scalar {left d : Nat} {c : Char} (hspace : isSpace c = false)
    (hbrace : c ≠ '\x7b') (hbracket : c ≠ '[') (rest : List Char) :
    readValue (left + 1) d (c :: rest) = readScalar (c :: rest) := by
  rw [readValue, Reader.skipping_cons hspace, Reader.ahead_neg (by simpa using hbrace),
    Reader.ahead_neg (by simpa using hbracket)]

theorem readValue_quote {left d : Nat} (s : String) (rest : List Char) :
    readValue (left + 1) d (quote s ++ rest) = some (requoted s, rest) := by
  unfold quote
  rw [List.cons_append, readValue_scalar (by decide) (by decide) (by decide), readScalar,
    Reader.ahead_pos (by decide), List.append_assoc, List.singleton_append]
  exact readString_quoted s rest

theorem readScalar_number {c : Char} (hc : startsNumber c) (rest : List Char) :
    readScalar (c :: rest) = readNumber (c :: rest) := by
  have hne : forall e, e.isDigit = false -> '-' ≠ e ->
      (c :: rest).head?.any (fun d => decide (d = e)) = false := by
    intro e hdigit hminus
    simpa using startsNumber_ne hc hdigit hminus
  unfold readScalar
  rw [Reader.ahead_neg (hne _ rfl (by decide)), Reader.ahead_neg (hne _ rfl (by decide)),
    Reader.ahead_neg (hne _ rfl (by decide)), Reader.ahead_neg (hne _ rfl (by decide))]

theorem closedBy_elems {d left : Nat} {elems : List Json} (hne : elems ≠ [])
    (helems : forall v, v ∈ elems -> Writable d v) (rest : List Char) :
    closedBy ']' (.arr []) ((readElems left d).map Json.arr) (marshalElems elems ++ rest) =
      (readElems left d).map Json.arr (marshalElems elems ++ rest) := by
  cases elems with
  | nil => exact absurd rfl hne
  | cons v elems =>
      rcases marshal_head (helems v List.mem_cons_self) with ⟨c, text, htext, hspace, hc⟩
      rw [marshalElems, htext]
      exact closedBy_read hspace hc _ _ _

theorem closedBy_members {d left : Nat} {members : List (String × Json)} (hne : members ≠ [])
    (rest : List Char) :
    closedBy '\x7d' (.obj []) ((readMembers left d).map Json.obj)
        (marshalMembers members ++ rest) =
      (readMembers left d).map Json.obj (marshalMembers members ++ rest) := by
  cases members with
  | nil => exact absurd rfl hne
  | cons member members => exact closedBy_read (by decide) (by decide) _ _ _

theorem readValue_marshal {d : Nat} {v : Json} (h : Writable d v) : ReadsBack d v := by
  induction h with
  | null d =>
      intro left rest hleft _
      cases left with
      | zero => cases hleft
      | succ left => rfl
  | bool d b =>
      intro left rest hleft _
      cases left with
      | zero => cases hleft
      | succ left => cases b <;> rfl
  | int d n =>
      intro left rest hleft hrest
      cases left with
      | zero => cases hleft
      | succ left =>
          have hread := readNumber_int n hrest
          rcases toString_head n with ⟨c, text, htext, hc⟩
          show readValue (left + 1) d ((toString n).toList ++ rest) = some (.int n, rest)
          rw [htext, List.cons_append] at hread ⊢
          rw [readValue_scalar (startsNumber_not_space hc) (startsNumber_ne hc rfl (by decide))
            (startsNumber_ne hc rfl (by decide)), readScalar_number hc, hread]
  | str d s =>
      intro left rest hleft _
      cases left with
      | zero => cases hleft
      | succ left => exact readValue_quote s rest
  | escaped d s =>
      intro left rest hleft _
      cases left with
      | zero => cases hleft
      | succ left => exact readValue_quote s rest
  | @arr d elems helems ih =>
      intro left rest hleft _
      rw [Json.marshal, List.length_cons, List.length_append, List.length_singleton] at hleft
      cases left with
      | zero => cases hleft
      | succ left =>
          rw [Json.marshal, List.cons_append, List.append_assoc, List.singleton_append,
            readValue_bracket]
          by_cases hempty : elems = []
          · rw [hempty]
            exact closedBy_nothing (by decide) _ _ rest
          · rw [closedBy_elems hempty helems]
            exact Reader.map_some (readElems_marshal hempty ih (by omega))
  | @obj d members _ ih =>
      intro left rest hleft _
      rw [Json.marshal, List.length_cons, List.length_append, List.length_singleton] at hleft
      cases left with
      | zero => cases hleft
      | succ left =>
          rw [Json.marshal, List.cons_append, List.append_assoc, List.singleton_append,
            readValue_brace]
          by_cases hempty : members = []
          · rw [hempty]
            exact closedBy_nothing (by decide) _ _ rest
          · rw [closedBy_members hempty]
            exact Reader.map_some (readMembers_marshal hempty ih (by omega))

theorem readFirst_marshal {v : Json} (h : Writable maxNestingDepth v) {rest : List Char}
    (hrest : Delimited rest) : readFirst (v.marshal ++ rest) = some (v.reread, rest) := by
  unfold readFirst
  apply readValue_marshal h _ _ _ hrest
  rw [List.length_append]
  omega

theorem readAll_marshal {v : Json} (h : Writable maxNestingDepth v) :
    readAll v.marshal = some v.reread := by
  have hread := readFirst_marshal h delimited_nil
  rw [List.append_nil] at hread
  unfold readAll
  rw [hread, Option.bind_some]
  rfl

end Net
end Telemux
