import Mathlib.Data.List.Sort
import Telemux.Net.EscapedPath

/-!
# `http.ServeMux`

Patterns have a method and segments, and no host.  The escaped path of a request
is cleaned and matched segment by segment, each one decoded; literals go before
wildcards, and these before what ends in a slash.  When nothing matches, the mux
answers by itself.
-/

namespace Telemux
namespace Net

/-!
## Patterns
-/

inductive Segment where
  | literal (s : Bytes)
  | wildcard
  /-- The rest of the path, which a pattern that ends in a slash takes. -/
  | multi
deriving DecidableEq

structure Pattern where
  method : Bytes
  segments : List Segment
deriving DecidableEq

def space : UInt8 := 0x20
def leftBrace : UInt8 := 0x7b

def parseSegment (s : Bytes) : Segment :=
  if s = [] then .multi
  else if s.head? = some leftBrace then .wildcard
  else .literal (pathUnescape s)

/-- `parsePattern`, of a pattern with a method, a path, and at most plain wildcards. -/
def parsePattern (s : Bytes) : Pattern where
  method := (Cut space s).1
  segments := ((Cut space s).2.tail.splitOn slash).map parseSegment

structure Route (H : Type) where
  pattern : Pattern
  handler : H

/-!
## Matching
-/

section Matching

variable {H : Type}

abbrev RoutingNode (H : Type) := List (List Segment × Route H)

def emptyChild (n : RoutingNode H) : RoutingNode H :=
  n.filterMap fun
    | (.wildcard :: rest, r) => some (rest, r)
    | _ => none

def findChild (n : RoutingNode H) (seg : Bytes) : RoutingNode H :=
  if seg = [] then emptyChild n
  else
    n.filterMap fun
      | (.literal s :: rest, r) => if s = seg then some (rest, r) else none
      | _ => none

def multiChild (n : RoutingNode H) : Option (Route H) :=
  n.findSome? fun
    | (.multi :: _, r) => some r
    | _ => none

def leaf (n : RoutingNode H) : Option (Route H) :=
  n.findSome? fun
    | ([], r) => some r
    | _ => none

/-- `matchPath`, on the segments of a path; `matches'` are those that wildcards took. -/
def matchPath : RoutingNode H -> List Bytes -> List Bytes -> Option (Route H × List Bytes)
  | n, [], matches' => (leaf n).map fun r => (r, matches')
  | n, seg :: segs, matches' =>
      (matchPath (findChild n seg) segs matches').or
        ((if seg ≠ [slash] then matchPath (emptyChild n) segs (matches' ++ [seg]) else none).or
          ((multiChild n).map fun r => (r, matches')))

/-- The segments that `firstSegment` takes off the pieces of a path between slashes. -/
def decodeSegments : List Bytes -> List Bytes
  | [] => []
  | [s] => [if s = [] then [slash] else pathUnescape s]
  | s :: rest => pathUnescape s :: decodeSegments rest

def pathSegments (path : Bytes) : List Bytes :=
  if path = [] then [] else decodeSegments (path.tail.splitOn slash)

def matchMethod (routes : List (Route H)) (method path : Bytes) :
    Option (Route H × List Bytes) :=
  matchPath
    ((routes.filter fun r => decide (r.pattern.method = method)).map fun r =>
      (r.pattern.segments, r))
    (pathSegments path) []

/-- `matchMethodAndPath`. -/
def matchRoute (routes : List (Route H)) (method path : Bytes) :
    Option (Route H × List Bytes) :=
  (matchMethod routes method path).or
    ((if method = utf8 "HEAD" then matchMethod routes (utf8 "GET") path else none).or
      (matchMethod routes [] path))

/-!
## Requests
-/

structure Request where
  method : Bytes
  /-- The request target is `*`. -/
  star : Bool := false
  path : Bytes
  rawPath : Bytes := []

/-- What a mux does with a request: it calls a handler, or answers by itself. -/
inductive Served (H : Type) where
  | handler (h : H) (pathValues : List Bytes)
  | redirect (path : Bytes)
  | notFound
  | methodNotAllowed (allow : List Bytes)
  | badRequest
deriving DecidableEq

def cleanPath (p : Bytes) : Bytes :=
  if p = [] then [slash]
  else
    let np := Clean (if p.head? = some slash then p else slash :: p)
    if p.getLast? = some slash ∧ np ≠ [slash] then np ++ [slash] else np

/-- `exactMatch`: no part of the path is left to a multi wildcard. -/
def exactMatch (n : Option (Route H × List Bytes)) (path : Bytes) : Bool :=
  match n with
  | none => false
  | some (r, _) =>
      if r.pattern.segments.getLast? ≠ some .multi then true
      else if path ≠ [] ∧ path.getLast? ≠ some slash then false
      else decide (r.pattern.segments.length = path.count slash)

/-- `matchOrRedirect`; `urlPath` is the path of the URL, which nil stands for the lack of. -/
def matchOrRedirect (routes : List (Route H)) (method path : Bytes)
    (urlPath : Option Bytes) : Option (Route H × List Bytes) × Option Bytes :=
  let n := matchRoute routes method path
  match urlPath with
  | none => (n, none)
  | some urlPath =>
      if !exactMatch n path && decide (path.getLast? ≠ some slash) && decide (path ≠ []) &&
          exactMatch (matchRoute routes method (path ++ [slash])) (path ++ [slash]) then
        (matchRoute routes method (path ++ [slash]), some (cleanPath urlPath ++ [slash]))
      else (n, none)

/-- `matchingMethods`: the methods with which the path would match. -/
def matchingMethods (routes : List (Route H)) (path : Bytes) : List Bytes :=
  let methods := (routes.map fun r => r.pattern.method).dedup.filter fun m =>
    decide (m ≠ []) && ((matchMethod routes m path).isSome ||
      (decide (path.getLast? ≠ some slash) && (matchMethod routes m (path ++ [slash])).isSome))
  (if utf8 "GET" ∈ methods then (utf8 "HEAD" :: methods).dedup else methods).insertionSort
    fun a b => a ≤ b

/-- The end of `findHandler`. -/
def serveMatch (routes : List (Route H)) (path : Bytes) :
    Option (Route H × List Bytes) -> Served H
  | some (r, pathValues) => .handler r.handler pathValues
  | none =>
      if matchingMethods routes path ≠ [] then .methodNotAllowed (matchingMethods routes path)
      else .notFound

def findHandler (routes : List (Route H)) (req : Request) : Served H :=
  let escapedPath := EscapedPath req.path req.rawPath
  if req.method = utf8 "CONNECT" then
    match matchOrRedirect routes req.method escapedPath (some req.path) with
    | (_, some u) => .redirect u
    | (_, none) => serveMatch routes escapedPath (matchRoute routes req.method escapedPath)
  else
    match matchOrRedirect routes req.method (cleanPath escapedPath) (some req.path) with
    | (_, some u) => .redirect u
    | (n, none) =>
        if cleanPath escapedPath ≠ escapedPath then .redirect (cleanPath escapedPath)
        else serveMatch routes (cleanPath escapedPath) n

/-- `ServeMux.ServeHTTP`. -/
def serveHTTP (routes : List (Route H)) (req : Request) : Served H :=
  if req.star then .badRequest else findHandler routes req

/-!
## What a match says about the path
-/

def Fits : List Segment -> List Bytes -> Prop
  | [], segs => segs = []
  | .literal s :: pat, seg :: segs => s = seg ∧ Fits pat segs
  | .literal _ :: _, [] => False
  | .wildcard :: pat, _ :: segs => Fits pat segs
  | .wildcard :: _, [] => False
  | .multi :: _, segs => segs ≠ []

theorem mem_emptyChild {n : RoutingNode H} {pat : List Segment} {r : Route H}
    (h : (pat, r) ∈ emptyChild n) : (.wildcard :: pat, r) ∈ n := by
  unfold emptyChild at h
  rcases List.mem_filterMap.mp h with ⟨⟨pat', r'⟩, hmem, heq⟩
  match pat', heq with
  | .wildcard :: rest, heq =>
      cases heq
      exact hmem

theorem mem_findChild {n : RoutingNode H} {seg : Bytes} {pat : List Segment} {r : Route H}
    (h : (pat, r) ∈ findChild n seg) :
    (.literal seg :: pat, r) ∈ n ∨ (.wildcard :: pat, r) ∈ n := by
  unfold findChild at h
  split at h
  · exact Or.inr (mem_emptyChild h)
  · rcases List.mem_filterMap.mp h with ⟨⟨pat', r'⟩, hmem, heq⟩
    match pat', heq with
    | .literal s :: rest, heq =>
        dsimp only at heq
        split at heq
        · rename_i hs
          cases heq
          exact Or.inl (hs ▸ hmem)
        · cases heq

theorem mem_multiChild {n : RoutingNode H} {r : Route H} (h : multiChild n = some r) :
    exists pat, (.multi :: pat, r) ∈ n := by
  unfold multiChild at h
  rcases List.exists_of_findSome?_eq_some h with ⟨⟨pat, r'⟩, hmem, heq⟩
  match pat, heq with
  | .multi :: rest, heq =>
      cases heq
      exact ⟨rest, hmem⟩

theorem mem_leaf {n : RoutingNode H} {r : Route H} (h : leaf n = some r) : ([], r) ∈ n := by
  unfold leaf at h
  rcases List.exists_of_findSome?_eq_some h with ⟨⟨pat, r'⟩, hmem, heq⟩
  match pat, heq with
  | [], heq =>
      cases heq
      exact hmem

theorem matchPath_fits {n : RoutingNode H} {segs matches' pathValues : List Bytes} {r : Route H}
    (h : matchPath n segs matches' = some (r, pathValues)) :
    exists pat, (pat, r) ∈ n ∧ Fits pat segs := by
  induction segs generalizing n matches' with
  | nil =>
      rcases Option.map_eq_some_iff.mp h with ⟨r', hleaf, heq⟩
      cases heq
      exact ⟨[], mem_leaf hleaf, rfl⟩
  | cons seg segs ih =>
      unfold matchPath at h
      rcases Option.or_eq_some_iff.mp h with hliteral | ⟨_, h⟩
      · rcases ih hliteral with ⟨pat, hmem, hfits⟩
        rcases mem_findChild hmem with hmem | hmem
        · exact ⟨_, hmem, rfl, hfits⟩
        · exact ⟨_, hmem, hfits⟩
      · rcases Option.or_eq_some_iff.mp h with hwildcard | ⟨_, hmulti⟩
        · split at hwildcard
          · rcases ih hwildcard with ⟨pat, hmem, hfits⟩
            exact ⟨_, mem_emptyChild hmem, hfits⟩
          · cases hwildcard
        · rcases Option.map_eq_some_iff.mp hmulti with ⟨r', hchild, heq⟩
          cases heq
          rcases mem_multiChild hchild with ⟨pat, hmem⟩
          exact ⟨_, hmem, List.cons_ne_nil _ _⟩

theorem matchRoute_fits {routes : List (Route H)} {method path : Bytes}
    {pathValues : List Bytes} {r : Route H}
    (h : matchRoute routes method path = some (r, pathValues)) :
    r ∈ routes ∧ Fits r.pattern.segments (pathSegments path) ∧
      (r.pattern.method = method ∨ r.pattern.method = utf8 "GET" ∧ method = utf8 "HEAD" ∨
        r.pattern.method = []) := by
  have hmethod : forall {m : Bytes}, matchMethod routes m path = some (r, pathValues) ->
      r ∈ routes ∧ Fits r.pattern.segments (pathSegments path) ∧ r.pattern.method = m := by
    intro m hm
    rcases matchPath_fits hm with ⟨pat, hmem, hfits⟩
    rcases List.mem_map.mp hmem with ⟨r', hr', heq⟩
    cases heq
    rcases List.mem_filter.mp hr' with ⟨hin, hsame⟩
    exact ⟨hin, hfits, of_decide_eq_true hsame⟩
  rcases Option.or_eq_some_iff.mp h with hsame | ⟨_, h⟩
  · rcases hmethod hsame with ⟨hin, hfits, hm⟩
    exact ⟨hin, hfits, Or.inl hm⟩
  · rcases Option.or_eq_some_iff.mp h with hget | ⟨_, hany⟩
    · split at hget
      · rename_i hhead
        rcases hmethod hget with ⟨hin, hfits, hm⟩
        exact ⟨hin, hfits, Or.inr (Or.inl ⟨hm, hhead⟩)⟩
      · cases hget
    · rcases hmethod hany with ⟨hin, hfits, hm⟩
      exact ⟨hin, hfits, Or.inr (Or.inr hm)⟩

theorem cleanPath_rooted (p : Bytes) : (cleanPath p).head? = some slash := by
  unfold cleanPath
  split
  · rfl
  · have hrooted : (if p.head? = some slash then p else slash :: p).head? = some slash := by
      split
      · assumption
      · rfl
    rcases clean_rooted hrooted with ⟨rest, hclean⟩
    dsimp only
    rw [hclean]
    split <;> rfl

theorem matchOrRedirect_none {routes : List (Route H)} {method path : Bytes}
    {urlPath : Option Bytes} {n : Option (Route H × List Bytes)}
    (h : matchOrRedirect routes method path urlPath = (n, none)) :
    n = matchRoute routes method path := by
  unfold matchOrRedirect at h
  cases urlPath with
  | none =>
      cases h
      rfl
  | some u =>
      dsimp only at h
      split at h
      · cases h
      · cases h
        rfl

theorem serveMatch_handler {routes : List (Route H)} {path : Bytes}
    {n : Option (Route H × List Bytes)} {handler : H} {pathValues : List Bytes}
    (h : serveMatch routes path n = .handler handler pathValues) :
    exists r, n = some (r, pathValues) ∧ r.handler = handler := by
  cases n with
  | none =>
      simp only [serveMatch] at h
      split at h
      · cases h
      · cases h
  | some result =>
      cases h
      exact ⟨_, rfl, rfl⟩

theorem findHandler_fits {routes : List (Route H)} {req : Request} {handler : H}
    {pathValues : List Bytes} (h : findHandler routes req = .handler handler pathValues) :
    exists r, r ∈ routes ∧ r.handler = handler ∧
      Fits r.pattern.segments (pathSegments (EscapedPath req.path req.rawPath)) ∧
      ((EscapedPath req.path req.rawPath).head? = some slash ∨
        r.pattern.method = utf8 "CONNECT" ∨ r.pattern.method = []) := by
  unfold findHandler at h
  dsimp only at h
  split at h
  · rename_i hconnect
    split at h
    · cases h
    · rcases serveMatch_handler h with ⟨r, hmatch, rfl⟩
      rcases matchRoute_fits hmatch with ⟨hin, hfits, hmethod⟩
      refine ⟨r, hin, rfl, hfits, Or.inr ?_⟩
      rw [hconnect] at hmethod
      rcases hmethod with hsame | ⟨_, hhead⟩ | hany
      · exact Or.inl hsame
      · exact absurd (congrArg List.length hhead) (by decide)
      · exact Or.inr hany
  · split at h
    · cases h
    · rename_i n hmatch
      split at h
      · cases h
      · rename_i hclean
        rcases serveMatch_handler h with ⟨r, hn, rfl⟩
        rw [matchOrRedirect_none hmatch, not_not.mp hclean] at hn
        rcases matchRoute_fits hn with ⟨hin, hfits, _⟩
        refine ⟨r, hin, rfl, hfits, Or.inl ?_⟩
        rw [← not_not.mp hclean]
        exact cleanPath_rooted _

theorem serveMatch_not_bad {routes : List (Route H)} {path : Bytes}
    {n : Option (Route H × List Bytes)} : serveMatch routes path n ≠ .badRequest := by
  cases n with
  | none =>
      simp only [serveMatch]
      split
      · exact nofun
      · exact nofun
  | some result => exact nofun

theorem findHandler_not_bad {routes : List (Route H)} {req : Request} :
    findHandler routes req ≠ .badRequest := by
  unfold findHandler
  dsimp only
  split
  · split
    · exact nofun
    · exact serveMatch_not_bad
  · split
    · exact nofun
    · split
      · exact nofun
      · exact serveMatch_not_bad

/-!
## Literal prefixes

The literals a pattern starts with are what the decoded path starts with,
however the path is encoded.
-/

def literalPrefix : List Segment -> List Bytes
  | .literal s :: pat => s :: literalPrefix pat
  | _ => []

def joined (segs : List Bytes) : Bytes :=
  segs.flatMap fun seg => slash :: seg

theorem unescape_slash {s t : Bytes} (h : unescape (slash :: s) = .ok t) :
    exists t', unescape s = .ok t' ∧ t = slash :: t' := by
  rw [unescape_plain (by decide), map_ok_iff] at h
  rcases h with ⟨t', ht', heq⟩
  exact ⟨t', ht', heq.symm⟩

theorem pathUnescape_ok {s t : Bytes} (h : unescape s = .ok t) : pathUnescape s = t := by
  unfold pathUnescape
  rw [h]

theorem fits_nil {pat : List Segment} (h : Fits pat []) : pat = [] := by
  cases pat with
  | nil => rfl
  | cons seg pat =>
      cases seg with
      | literal s => exact h.elim
      | wildcard => exact h.elim
      | multi => exact absurd rfl h

theorem fits_pieces {pat : List Segment} {pieces : List Bytes} {path : Bytes}
    (hpieces : pieces ≠ []) (hpath : unescape (slash :: joinElements pieces) = .ok path)
    (hfits : Fits pat (decodeSegments pieces)) (hplain : [slash] ∉ literalPrefix pat) :
    joined (literalPrefix pat) <+: path := by
  induction pieces generalizing pat path with
  | nil => exact absurd rfl hpieces
  | cons s rest ih =>
      match pat, hfits, hplain with
      | [], _, _ => exact List.nil_prefix
      | .wildcard :: _, _, _ => exact List.nil_prefix
      | .multi :: _, _, _ => exact List.nil_prefix
      | .literal l :: pat, hfits, hplain =>
          have hl : l ≠ [slash] := fun heq => hplain (heq ▸ List.mem_cons_self)
          have hrest : [slash] ∉ literalPrefix pat := fun hmem =>
            hplain (List.mem_cons_of_mem l hmem)
          cases rest with
          | nil =>
              rcases unescape_slash hpath with ⟨t, ht, rfl⟩
              have hs : s ≠ [] := by
                intro heq
                apply hl
                rw [hfits.left, if_pos heq]
              have hdecoded : l = t := by
                rw [hfits.left, if_neg hs]
                exact pathUnescape_ok (by simpa [joinElements] using ht)
              rw [fits_nil hfits.right, hdecoded]
              simp [literalPrefix, joined]
          | cons next more =>
              have hjoin : joinElements (s :: next :: more) =
                  s ++ slash :: joinElements (next :: more) := by
                simp [joinElements, List.intercalate]
              rcases unescape_slash hpath with ⟨t, ht, rfl⟩
              rw [hjoin] at ht
              rcases unescape_append_slash ht with ⟨d, t', hd, ht', rfl⟩
              have hdecoded : l = d := hfits.left.trans (pathUnescape_ok hd)
              have htail := ih (List.cons_ne_nil _ _) ht' hfits.right hrest
              subst hdecoded
              exact List.cons_prefix_cons.mpr ⟨rfl, (List.prefix_append_right_inj l).mpr htail⟩

theorem fits_path {pat : List Segment} {path tail : Bytes}
    (hpath : unescape (slash :: tail) = .ok path)
    (hfits : Fits pat (pathSegments (slash :: tail)))
    (hplain : [slash] ∉ literalPrefix pat) : joined (literalPrefix pat) <+: path := by
  have hjoin : joinElements (tail.splitOn slash) = tail := List.intercalate_splitOn slash
  apply fits_pieces (List.splitOn_ne_nil slash tail) _ _ hplain
  · rwa [hjoin]
  · exact hfits

end Matching

end Net
end Telemux
