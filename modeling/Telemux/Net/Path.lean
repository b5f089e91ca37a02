import Mathlib.Data.List.DropRight
import Telemux.Net.Url

/-!
# Paths as package `path` cleans them

`Clean` walks the elements of a path: it drops empty elements and `.`, and lets
`..` take the element before it.  On Unix `filepath.Clean` is the same function.
-/

namespace Telemux
namespace Net

def dot : Bytes := [0x2e]
def dotdot : Bytes := [0x2e, 0x2e]

def cleanElement (rooted : Bool) (kept : List Bytes) (elem : Bytes) : List Bytes :=
  if elem = [] ∨ elem = dot then kept
  else if elem = dotdot then
    match kept with
    | [] => if rooted then [] else [dotdot]
    | last :: rest => if last = dotdot then dotdot :: kept else rest
  else elem :: kept

def cleanElements (rooted : Bool) (elems : List Bytes) : List Bytes :=
  (elems.foldl (cleanElement rooted) []).reverse

def joinElements (elems : List Bytes) : Bytes :=
  [slash].intercalate elems

def Clean (p : Bytes) : Bytes :=
  if p.head? = some slash then
    slash :: joinElements (cleanElements true (p.splitOn slash))
  else
    let elems := cleanElements false (p.splitOn slash)
    if elems = [] then dot else joinElements elems

theorem clean_rooted {p : Bytes} (h : p.head? = some slash) :
    exists rest, Clean p = slash :: rest := by
  unfold Clean
  rw [if_pos h]
  exact ⟨_, rfl⟩

/-- `filepath.Dir`: what stands before the last element, cleaned. -/
def Dir (p : Bytes) : Bytes :=
  Clean (p.rdropWhile fun b => decide (b ≠ slash))

example : Clean (utf8 "/a//b/./../c/") = utf8 "/a/c" := by decide +kernel

example : Dir (utf8 "/usr/local/bin/telemux") = utf8 "/usr/local/bin" := by decide +kernel

example : Dir (utf8 "telemux") = dot := by decide +kernel

end Net
end Telemux
