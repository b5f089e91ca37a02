import Mathlib.Data.List.Nodup
import Mathlib.Data.List.TakeWhile
import Telemux.SelfUpdate.Checksums

/-!
# The grammar of checksums

What a list of checksums says about a name is said by the last line for it, of
whatever length.  `ParseChecksums` stops at the first line too long for the
buffer of its scanner and never asks the scanner for its error, so it agrees
with the text about a name as long as the rest of the text does not matter.
-/

namespace Telemux
namespace SelfUpdate

open Net

/-!
## Read and unread lines
-/

def textLines (text : Bytes) : List Bytes :=
  (rawLines text).map dropCR

def unreadLines (text : Bytes) : List Bytes :=
  ((rawLines text).dropWhile fun line => decide (line.length < MaxScanTokenSize)).map dropCR

theorem textLines_split (text : Bytes) : textLines text = scanLines text ++ unreadLines text := by
  unfold textLines scanLines unreadLines
  rw [← List.map_append, List.takeWhile_append_dropWhile]

section Grammar

variable [LowerCase]

structure ReadsGrammar (text name : Bytes) : Prop where
  present : (ParseChecksums text name).isSome = true <->
    exists line digest, line ∈ textLines text ∧ checksumLine line = some (digest, name)
  value : forall digest, LastLineFor (textLines text) name digest ->
    ParseChecksums text name = some (LowerCase.toLower digest)

theorem readsGrammar_iff {text name : Bytes} :
    ReadsGrammar text name <->
      ParseChecksums text name = (lastDigest (textLines text) name).map LowerCase.toLower := by
  have hsome : (lastDigest (textLines text) name).isSome = true <->
      exists line digest, line ∈ textLines text ∧ checksumLine line = some (digest, name) := by
    rw [Option.isSome_iff_ne_none, ne_eq, lastDigest_none]
    push Not
    constructor
    · intro hline
      rcases hline with ⟨line, hmem, digest, hdigest⟩
      exact ⟨line, digest, hmem, hdigest⟩
    · intro hline
      rcases hline with ⟨line, digest, hmem, hdigest⟩
      exact ⟨line, hmem, digest, hdigest⟩
  constructor
  · intro hreads
    cases hlast : lastDigest (textLines text) name with
    | none =>
        rw [Option.map_none, ← Option.not_isSome_iff_eq_none, hreads.present, ← hsome, hlast]
        exact nofun
    | some digest => exact hreads.value digest (lastDigest_some.mp hlast)
  · intro heq
    constructor
    · rw [heq, Option.isSome_map]
      exact hsome
    · intro digest hlast
      rw [heq, lastDigest_some.mpr hlast]
      rfl

def Unspoilt (text name : Bytes) : Prop :=
  (forall line, line ∈ unreadLines text ->
      forall digest, checksumLine line ≠ some (digest, name)) ∨
    exists digest digest', LastLineFor (scanLines text) name digest ∧
      LastLineFor (textLines text) name digest' ∧
      LowerCase.toLower digest = LowerCase.toLower digest'

theorem readsGrammar_iff_unspoilt (text name : Bytes) :
    ReadsGrammar text name <-> Unspoilt text name := by
  unfold Unspoilt
  rw [readsGrammar_iff, parseChecksums_eq, ← lastDigest_none]
  simp only [← lastDigest_some]
  rw [textLines_split, lastDigest_append]
  cases lastDigest (unreadLines text) name with
  | none => simp
  | some digest' =>
      cases lastDigest (scanLines text) name with
      | none => simp
      | some digest => simp

end Grammar

/-!
## Words without white space
-/

def space : UInt8 := 0x20

def OneField (s : Bytes) : Prop :=
  Fields s = [s]

theorem isSpace2_space (a : UInt8) : isSpace2 a space = false := by
  simp [isSpace2, space]

theorem isSpace3_space_left (a c : UInt8) : isSpace3 a space c = false := by
  simp [isSpace3, space]

theorem isSpace3_space_right (a b : UInt8) : isSpace3 a b space = false := by
  simp [isSpace3, space]

theorem pieces_space1 {a : UInt8} (h : isSpace1 a = true) (rest : Bytes) :
    pieces (a :: rest) = [] :: pieces rest := by
  rcases rest with _ | ⟨b, _ | ⟨c, rest''⟩⟩
  · simp [pieces, h]
  · simp [pieces, h]
  · rw [pieces, if_pos h]

theorem pieces_space2 {a b : UInt8} (h1 : isSpace1 a = false) (h2 : isSpace2 a b = true)
    (rest : Bytes) : pieces (a :: b :: rest) = [] :: pieces rest := by
  cases rest with
  | nil => simp [pieces, h1, h2]
  | cons c rest'' =>
      rw [pieces]
      simp only [h1, h2, Bool.false_eq_true, if_false, if_true]

theorem pieces_space3 {a b c : UInt8} (h1 : isSpace1 a = false) (h2 : isSpace2 a b = false)
    (h3 : isSpace3 a b c = true) (rest : Bytes) :
    pieces (a :: b :: c :: rest) = [] :: pieces rest := by
  rw [pieces]
  simp only [h1, h2, h3, Bool.false_eq_true, if_false, if_true]

theorem pieces_induction {P : Bytes -> Prop} (nil : P [])
    (blank : forall s rest, (forall t, pieces (s ++ t) = [] :: pieces (rest ++ t)) ->
      P rest -> P s)
    (other : forall a rest, isSpace1 a = false -> pieces (a :: rest) = extend a (pieces rest) ->
      (forall t, pieces (a :: (rest ++ space :: t)) = extend a (pieces (rest ++ space :: t))) ->
      P rest -> P (a :: rest)) (s : Bytes) : P s := by
  induction s using pieces.induct with
  | case1 => exact nil
  | case2 a rest h1 ih => exact blank _ rest (fun t => pieces_space1 h1 _) ih
  | case3 a h1 b rest h2 ih =>
      exact blank _ rest (fun t => pieces_space2 (eq_false_of_ne_true h1) h2 _) ih
  | case4 a h1 b h2 c rest h3 ih =>
      exact blank _ rest
        (fun t => pieces_space3 (eq_false_of_ne_true h1) (eq_false_of_ne_true h2) h3 _) ih
  | case5 a h1 b h2 c rest h3 ih =>
      have hother : forall more, pieces (a :: b :: c :: more) =
          extend a (pieces (b :: c :: more)) := by
        intro more
        rw [pieces]
        simp only [h1, h2, h3, Bool.false_eq_true, if_false]
      exact other a _ (eq_false_of_ne_true h1) (hother rest) (fun t => hother _) ih
  | case6 a h1 b h2 ih =>
      have hpair : pieces [a, b] = extend a (pieces [b]) := by
        simp [pieces, h1, h2]
      refine other a _ (eq_false_of_ne_true h1) hpair ?_ ih
      intro t
      rw [List.singleton_append, pieces]
      simp only [h1, h2, isSpace3_space_right, Bool.false_eq_true, if_false]
  | case7 a h1 =>
      have hlast : pieces [a] = extend a (pieces []) := by
        simp [pieces, h1, extend]
      refine other a [] (eq_false_of_ne_true h1) hlast ?_ nil
      intro t
      rw [List.nil_append]
      cases t with
      | nil => simp [pieces, h1, isSpace2_space]
      | cons c rest =>
          rw [pieces]
          simp only [h1, isSpace2_space, isSpace3_space_left, Bool.false_eq_true, if_false]

theorem extend_ne_nil (a : UInt8) (parts : List Bytes) : extend a parts ≠ [] := by
  cases parts with
  | nil => exact List.cons_ne_nil _ _
  | cons part parts => exact List.cons_ne_nil _ _

theorem extend_append (a : UInt8) {parts : List Bytes} (h : parts ≠ []) (more : List Bytes) :
    extend a (parts ++ more) = extend a parts ++ more := by
  cases parts with
  | nil => exact absurd rfl h
  | cons part parts => rfl

theorem pieces_ne_nil (s : Bytes) : pieces s ≠ [] := by
  induction s using pieces_induction with
  | nil => exact List.cons_ne_nil _ _
  | blank s rest hblank _ =>
      rw [← List.append_nil s, hblank]
      exact List.cons_ne_nil _ _
  | other a rest _ hother _ _ =>
      rw [hother]
      exact extend_ne_nil _ _

theorem pieces_space (s t : Bytes) : pieces (s ++ space :: t) = pieces s ++ pieces t := by
  induction s using pieces_induction with
  | nil => exact pieces_space1 (by decide) t
  | blank s rest hblank ih =>
      have hs := hblank []
      rw [List.append_nil, List.append_nil] at hs
      rw [hblank, hs, ih]
      rfl
  | other a rest _ hother hlater ih =>
      rw [List.cons_append, hlater, hother, ih, extend_append a (pieces_ne_nil rest)]

theorem mem_extend {a : UInt8} {parts : List Bytes} {piece : Bytes} (h : piece ∈ extend a parts)
    (hparts : forall part, part ∈ parts -> forall b, b ∈ part -> isSpace1 b = false)
    (ha : isSpace1 a = false) : forall b, b ∈ piece -> isSpace1 b = false := by
  cases parts with
  | nil =>
      rw [extend, List.mem_singleton] at h
      subst h
      intro b hb
      rw [List.mem_singleton.mp hb]
      exact ha
  | cons part parts =>
      rw [extend, List.mem_cons] at h
      rcases h with rfl | hrest
      · intro b hb
        rcases List.mem_cons.mp hb with rfl | hold
        · exact ha
        · exact hparts part List.mem_cons_self b hold
      · exact hparts piece (List.mem_cons_of_mem part hrest)

theorem isSpace1_of_mem_pieces (s : Bytes) :
    forall piece, piece ∈ pieces s -> forall b, b ∈ piece -> isSpace1 b = false := by
  induction s using pieces_induction with
  | nil =>
      intro piece hpiece b hb
      rw [pieces, List.mem_singleton] at hpiece
      subst hpiece
      cases hb
  | blank s rest hblank ih =>
      intro piece hpiece b hb
      rw [← List.append_nil s, hblank, List.append_nil] at hpiece
      rcases List.mem_cons.mp hpiece with rfl | hrest
      · cases hb
      · exact ih piece hrest b hb
  | other a rest h1 hother _ ih =>
      rw [hother]
      exact fun piece hpiece => mem_extend hpiece ih h1

theorem OneField.mem_pieces {s : Bytes} (h : OneField s) : s ∈ pieces s ∧ s ≠ [] := by
  have hmem : s ∈ Fields s := by
    rw [show Fields s = [s] from h]
    exact List.mem_singleton_self s
  rw [Fields, List.mem_filter, decide_eq_true_eq] at hmem
  exact hmem

theorem OneField.not_mem {s : Bytes} (h : OneField s) {b : UInt8} (hb : isSpace1 b = true) :
    b ∉ s := by
  intro hmem
  have hfalse := isSpace1_of_mem_pieces s s h.mem_pieces.left b hmem
  rw [hb] at hfalse
  cases hfalse

/-!
## A list of checksums

The text that lists a digest and a name on each line.
-/

/-- The line `<hex>  <name>`. -/
def checksumText (entry : Bytes × Bytes) : Bytes :=
  entry.1 ++ space :: space :: entry.2

def checksumsText (entries : List (Bytes × Bytes)) : Bytes :=
  entries.flatMap fun entry => checksumText entry ++ [newline]

theorem fields_checksumText (entry : Bytes × Bytes) :
    Fields (checksumText entry) = Fields entry.1 ++ Fields entry.2 := by
  unfold Fields checksumText
  rw [pieces_space, ← List.nil_append (space :: entry.2), pieces_space, pieces,
    List.filter_append, List.filter_append]
  rfl

theorem checksumLine_checksumText {entry : Bytes × Bytes} (hdigest : OneField entry.1)
    (hname : OneField entry.2) : checksumLine (checksumText entry) = some entry := by
  unfold checksumLine
  rw [fields_checksumText, show Fields entry.1 = [entry.1] from hdigest,
    show Fields entry.2 = [entry.2] from hname]
  rfl

theorem not_mem_checksumText {entry : Bytes × Bytes} (hdigest : OneField entry.1)
    (hname : OneField entry.2) {b : UInt8} (hb : isSpace1 b = true) (hspace : b ≠ space) :
    b ∉ checksumText entry := by
  intro hmem
  rcases List.mem_append.mp hmem with hfirst | hrest
  · exact hdigest.not_mem hb hfirst
  · simp only [List.mem_cons, hspace, false_or] at hrest
    exact hname.not_mem hb hrest

theorem dropCR_checksumText {entry : Bytes × Bytes} (hdigest : OneField entry.1)
    (hname : OneField entry.2) : dropCR (checksumText entry) = checksumText entry := by
  unfold dropCR
  rw [if_neg]
  intro hlast
  exact not_mem_checksumText hdigest hname (by decide) (by decide)
    (List.mem_of_getLast? hlast)

theorem rawLines_line {line : Bytes} (h : newline ∉ line) (rest : Bytes) :
    rawLines (line ++ newline :: rest) = line :: rawLines rest := by
  unfold rawLines
  rw [List.splitOn_append_cons_self_of_not_mem h]
  have hne := List.splitOn_ne_nil newline rest
  simp only [List.getLast?_cons_of_ne_nil hne, List.dropLast_cons_of_ne_nil hne]
  split
  · rfl
  · rfl

theorem rawLines_checksumsText {entries : List (Bytes × Bytes)}
    (hentries : forall entry, entry ∈ entries -> OneField entry.1 ∧ OneField entry.2) :
    rawLines (checksumsText entries) = entries.map checksumText := by
  induction entries with
  | nil => rfl
  | cons entry rest ih =>
      have hfirst := hentries entry List.mem_cons_self
      have hline : newline ∉ checksumText entry :=
        not_mem_checksumText hfirst.left hfirst.right (by decide) (by decide)
      have htext : checksumsText (entry :: rest) =
          checksumText entry ++ newline :: checksumsText rest := by
        simp [checksumsText]
      rw [htext, rawLines_line hline,
        ih fun other hother => hentries other (List.mem_cons_of_mem entry hother)]
      rfl

theorem scanLines_checksumsText {entries : List (Bytes × Bytes)}
    (hentries : forall entry, entry ∈ entries -> OneField entry.1 ∧ OneField entry.2) :
    scanLines (checksumsText entries) =
      (entries.takeWhile fun entry =>
        decide ((checksumText entry).length < MaxScanTokenSize)).map checksumText := by
  unfold scanLines
  rw [rawLines_checksumsText hentries, List.takeWhile_map, List.map_map]
  apply List.map_congr_left
  intro entry hentry
  have hone := hentries entry ((List.takeWhile_sublist _).subset hentry)
  exact dropCR_checksumText hone.left hone.right

section Listed

variable [LowerCase]

theorem parseChecksums_listed {entries : List (Bytes × Bytes)}
    (hentries : forall entry, entry ∈ entries -> OneField entry.1 ∧ OneField entry.2)
    (hnames : (entries.map Prod.snd).Nodup) :
    (forall entry, entry ∈ entries ->
      ParseChecksums (checksumsText entries) entry.2 = some (LowerCase.toLower entry.1)) <->
    forall entry, entry ∈ entries -> (checksumText entry).length < MaxScanTokenSize := by
  have hscan := scanLines_checksumsText hentries
  constructor
  · intro hall entry hentry
    rcases parseChecksums_last (hall entry hentry) with
      ⟨digest, ⟨before, line, after, hlines, hline, _⟩, _⟩
    have hread : line ∈ scanLines (checksumsText entries) := by
      rw [hlines]
      exact List.mem_append_right _ List.mem_cons_self
    rw [hscan] at hread
    rcases List.mem_map.mp hread with ⟨other, hother, rfl⟩
    have hmem := (List.takeWhile_sublist _).subset hother
    rw [checksumLine_checksumText (hentries other hmem).left (hentries other hmem).right,
      Option.some.injEq] at hline
    have hsame : other = entry :=
      List.inj_on_of_nodup_map hnames hmem hentry (by rw [hline])
    subst hsame
    have hfits := List.mem_takeWhile_imp hother
    exact of_decide_eq_true hfits
  · intro hshort entry hentry
    rw [List.takeWhile_eq_self_iff.mpr fun e he => decide_eq_true (hshort e he)] at hscan
    rcases List.append_of_mem hentry with ⟨before, after, rfl⟩
    apply parseChecksums_of_last
    refine ⟨before.map checksumText, checksumText entry, after.map checksumText, ?_, ?_, ?_⟩
    · rw [hscan, List.map_append, List.map_cons]
    · exact checksumLine_checksumText (hentries entry hentry).left (hentries entry hentry).right
    · intro line hline digest hsame
      rcases List.mem_map.mp hline with ⟨other, hother, rfl⟩
      have hone := hentries other
        (List.mem_append_right before (List.mem_cons_of_mem entry hother))
      rw [checksumLine_checksumText hone.left hone.right, Option.some.injEq] at hsame
      rw [List.map_append, List.map_cons, List.nodup_append, List.nodup_cons] at hnames
      apply hnames.right.left.left
      exact List.mem_map.mpr ⟨other, hother, by rw [hsame]⟩

/--
The map says of a name what the grammar says exactly if what follows an overlong
line does not matter for it, and it recovers a list of checksums exactly if every
line of the list fits the buffer.
-/
theorem parseChecksums_reads_grammar :
    (forall text name, ReadsGrammar text name <-> Unspoilt text name) ∧
    forall entries : List (Bytes × Bytes),
      (forall entry, entry ∈ entries -> OneField entry.1 ∧ OneField entry.2) ->
      (entries.map Prod.snd).Nodup ->
      ((forall entry, entry ∈ entries ->
        ParseChecksums (checksumsText entries) entry.2 = some (LowerCase.toLower entry.1)) <->
      forall entry, entry ∈ entries -> (checksumText entry).length < MaxScanTokenSize) :=
  ⟨readsGrammar_iff_unspoilt, fun _ hentries hnames => parseChecksums_listed hentries hnames⟩

end Listed

/-- A list of two checksums. -/
theorem parseChecksums_reads_grammar_sample :
    letI := sampleLowerCase
    ParseChecksums (checksumsText [(utf8 "ab", utf8 "f"), (utf8 "cd", utf8 "g")]) (utf8 "f") =
      some (LowerCase.toLower (utf8 "ab")) :=
  letI := sampleLowerCase
  (parseChecksums_reads_grammar.right [(utf8 "ab", utf8 "f"), (utf8 "cd", utf8 "g")]
    (by unfold OneField; decide) (by decide)).mpr (by decide)
    (utf8 "ab", utf8 "f") List.mem_cons_self

/-- A line too long for the scanner hides the checksum after it. -/
theorem parseChecksums_overlong :
    letI := sampleLowerCase
    ¬ ReadsGrammar (List.replicate 65536 0x61 ++ newline :: utf8 "ab  f") (utf8 "f") := by
  let := sampleLowerCase
  intro hreads
  have hlong : newline ∉ List.replicate 65536 (0x61 : UInt8) := by
    rw [List.mem_replicate]
    exact fun hmem => absurd hmem.right (by decide)
  have hlines := rawLines_line hlong (utf8 "ab  f")
  have hlast : LastLineFor (textLines (List.replicate 65536 0x61 ++ newline :: utf8 "ab  f"))
      (utf8 "f") (utf8 "ab") := by
    refine ⟨[dropCR (List.replicate 65536 0x61)], utf8 "ab  f", [], ?_, rfl, nofun⟩
    unfold textLines
    rw [hlines]
    rfl
  have hvalue := hreads.value _ hlast
  have hscan : scanLines (List.replicate 65536 0x61 ++ newline :: utf8 "ab  f") = [] := by
    unfold scanLines
    rw [hlines, List.takeWhile_cons_of_neg]
    · rfl
    · rw [List.length_replicate]
      decide
  unfold ParseChecksums at hvalue
  rw [hscan] at hvalue
  cases hvalue

end SelfUpdate
end Telemux
