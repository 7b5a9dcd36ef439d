import FixedLayout.Json.Outline
import FixedLayout.Json.Printer
import FixedLayout.Registry.Basic
import FixedLayout.Registry.Tree

/-!
# Registry texts

A registry is written as an indented JSON array of its layouts. A text is read from
the left, one layout after the other, so a wrong shape is reported even if the text
breaks off later. Declarations are checked once the whole text is read.
-/

namespace FixedLayout.Registry

/-- A container of a text that breaks off: the parts before the fault, and in an
object the key whose value was being read. -/
inductive Opened where
  | array (elements : List Json)
  | object (members : List (String × Json)) (key : Option String)

/-- The container around a place. -/
def Opened.around : Json.Place → Opened
  | .element before => array before
  | .member before key => object before (some key)

/-- What a container is found to be. -/
def Opened.found : Opened → Found
  | array _ => .sequence
  | object _ _ => .map

/-- The containers open at the fault, outermost first. -/
def opened : Json.Outline → List Opened
  | .finished _ => []
  | .beforeValue path => around path
  | .afterOpenArray path => around path ++ [.array []]
  | .afterElement before path => around path ++ [.array before]
  | .afterOpenObject path => around path ++ [.object [] none]
  | .beforeKey before path => around path ++ [.object before none]
  | .afterKey before key path => around path ++ [.object before (some key)]
  | .afterMember before path => around path ++ [.object before none]
where
  /-- The containers around an innermost place. -/
  around (path : List Json.Place) : List Opened := path.reverse.map Opened.around

/-- The fault of shape in the kind of a layout, if the kind is itself a container. -/
def kindFault? : List Opened → Option ShapeFault
  | [] => none
  | container :: _ => some (.wrongType container.found .kind)

/-- The fault of a reading. -/
def faultOf? {Result : Type} : Shaped Result → Option ShapeFault
  | .ok _ => none
  | .error fault => some fault

/-- The fault of shape in a layout that breaks off. Before its end only its kind is
looked at. -/
def layoutFault? : List Opened → Option ShapeFault
  | [] => none
  | .array [] :: inner => kindFault? inner
  | .array (first :: _) :: _ => faultOf? (readKind first)
  | .object members key :: inner =>
      match kindOfMembers members with
      | .error fault => some fault
      | .ok found =>
          if key = some "kind" then
            if found.isSome then some (.repeatedKey "kind") else kindFault? inner
          else none

/-- The fault of shape in a text that breaks off: that of the first complete layout
that has one, or that of the layout at the fault. -/
def shapeFault? : Json.Outline → Option ShapeFault
  | .finished tree => faultOf? (readLayouts tree)
  | outline =>
      match opened outline with
      | [] => none
      | .object _ _ :: _ => some (.wrongType .map .sequence)
      | .array elements :: inner =>
          match elements.mapM readLayout with
          | .error fault => some fault
          | .ok _ => layoutFault? inner

/-- The fault of a text that is not JSON. -/
def textFault (outline : Json.Outline) : SchemaFault :=
  match shapeFault? outline with
  | some fault => .shape fault
  | none => .malformed

/-- The layouts that a tree describes. -/
def layoutsOfTree (tree : Json) : Except LayoutError (List Layout) :=
  match readLayouts tree with
  | .ok layouts => .ok layouts
  | .error fault => .error (.invalidSchema (.shape fault))

/-- The layouts that a text describes. -/
def layoutsOfText (text : String) : Except LayoutError (List Layout) :=
  match Json.parse text with
  | .ok tree => layoutsOfTree tree
  | .error outline => .error (.invalidSchema (textFault outline))

/-- The registry that a tree describes. -/
def ofTree (tree : Json) : Except LayoutError Registry := do
  let layouts ← layoutsOfTree tree
  ofLayouts layouts

/-- The registry that a text describes. -/
def ofText (text : String) : Except LayoutError Registry := do
  let layouts ← layoutsOfText text
  ofLayouts layouts

/-- The text of a registry. -/
def text (registry : Registry) : String := registry.tree.pretty

/-- The compact text of one layout. -/
def layoutText (layout : Layout) : String := (layoutTree layout).compact

end FixedLayout.Registry
