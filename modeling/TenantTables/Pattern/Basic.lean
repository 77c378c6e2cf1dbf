/-!
This module contains the search patterns of text fields as trees. Characters in patterns are code
points, which need not be characters of their own.
-/

namespace TenantTables.Pattern

structure Flags where
  ignoreCase : Bool := false
  multiline : Bool := false
  dotAll : Bool := false
  verbose : Bool := false
  ascii : Bool := false
  unicode : Bool := false
  template : Bool := false
  deriving DecidableEq, Repr, Inhabited

namespace Flags

def union (a b : Flags) : Flags where
  ignoreCase := a.ignoreCase || b.ignoreCase
  multiline := a.multiline || b.multiline
  dotAll := a.dotAll || b.dotAll
  verbose := a.verbose || b.verbose
  ascii := a.ascii || b.ascii
  unicode := a.unicode || b.unicode
  template := a.template || b.template

def without (a b : Flags) : Flags where
  ignoreCase := a.ignoreCase && !b.ignoreCase
  multiline := a.multiline && !b.multiline
  dotAll := a.dotAll && !b.dotAll
  verbose := a.verbose && !b.verbose
  ascii := a.ascii && !b.ascii
  unicode := a.unicode && !b.unicode
  template := a.template && !b.template

def isEmpty (a : Flags) : Bool :=
  a == {}

def enter (outer add del : Flags) : Flags :=
  let outer :=
    if add.ascii || add.unicode then { outer with ascii := false, unicode := false } else outer
  (outer.union add).without del

end Flags

inductive Category where
  | digit
  | space
  | word
  deriving DecidableEq, Repr

inductive SetItem where
  | single (c : Nat)
  | span (first last : Nat)
  | category (kind : Category) (negated : Bool)
  deriving DecidableEq, Repr

inductive Anchor where
  | lineStart
  | lineEnd
  | textStart
  | textEnd
  | boundary
  | notBoundary
  deriving DecidableEq, Repr

inductive Greed where
  | greedy
  | lazy
  | possessive
  deriving DecidableEq, Repr

inductive Node where
  | char (c : Nat)
  | notChar (c : Nat)
  | any
  | set (negated : Bool) (items : List SetItem)
  | anchor (a : Anchor)
  | group (index : Option Nat) (add del : Flags) (body : List Node)
  | atomic (body : List Node)
  | repeated (greed : Greed) (least : Nat) (most : Option Nat) (body : List Node)
  | branch (alternatives : List (List Node))
  | backref (index : Nat)
  | conditional (index : Nat) (yes no : List Node)
  | look (ahead negated : Bool) (width : Option Nat) (body : List Node)

instance : Inhabited Node where
  default := .any

structure Width where
  least : Nat
  most : Nat
  deriving DecidableEq, Repr, Inhabited

namespace Width

/--
Stands for any width beyond it.
-/
def limit : Nat := 18446744073709551616

def clamp (w : Width) : Width :=
  ⟨min w.least limit, min w.most limit⟩

def add (a b : Width) : Width :=
  ⟨a.least + b.least, a.most + b.most⟩

def either (a b : Width) : Width :=
  ⟨min a.least b.least, max a.most b.most⟩

def repeated (w : Width) (least : Nat) (most : Option Nat) : Width :=
  let top := match most with
    | some n => w.most * n
    | none => if w.most = 0 then 0 else limit
  ⟨w.least * least, top⟩

end Width

mutual

def Node.width (groups : Nat → Width) : Node → Width
  | .char _ => ⟨1, 1⟩
  | .notChar _ => ⟨1, 1⟩
  | .any => ⟨1, 1⟩
  | .set _ _ => ⟨1, 1⟩
  | .anchor _ => ⟨0, 0⟩
  | .group _ _ _ body => widthOf groups body
  | .atomic body => widthOf groups body
  | .repeated _ least most body => (widthOf groups body).repeated least most
  | .branch alternatives => widthOfAny groups alternatives
  | .backref index => groups index
  | .conditional _ yes no => (widthOf groups yes).either (widthOf groups no)
  | .look .. => ⟨0, 0⟩

def widthOf (groups : Nat → Width) : List Node → Width
  | [] => ⟨0, 0⟩
  | n :: ns => ((n.width groups).add (widthOf groups ns)).clamp

def widthOfAny (groups : Nat → Width) : List (List Node) → Width
  | [] => ⟨0, 0⟩
  | [p] => widthOf groups p
  | p :: ps => (widthOf groups p).either (widthOfAny groups ps)

end

end TenantTables.Pattern
