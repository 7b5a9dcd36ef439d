import FixedLayout.Json.Basic
import FixedLayout.Layout.Declaration

/-!
# Registries

A registry holds layouts under keys, in the order of their registration. Registering
checks the declaration and that its name is new, and then stores the layout under its
name. Registering carries the registry along, so what a refusal leaves behind is
visible.
-/

namespace FixedLayout

/-- The registered layouts under their keys, first one first. -/
structure Registry where
  types : List (String × Layout)

/-- A computation on a registry that may fail; the registry survives a failure. -/
abbrev Registering (Result : Type) : Type := ExceptT LayoutError (StateM Registry) Result

/-- The outcome of a registering and the registry it leaves. -/
def Registering.perform {Result : Type} (registering : Registering Result) (registry : Registry) :
    Except LayoutError Result × Registry :=
  registering.run.run registry

namespace Registry

/-- The registry without layouts. -/
def empty : Registry := ⟨[]⟩

/-- The registered layouts, first one first. -/
def layouts (registry : Registry) : List Layout := registry.types.map Prod.snd

/-- The names of the registered layouts, first one first. -/
def names (registry : Registry) : List String := registry.layouts.map Layout.name

/-- The layout under a key. -/
def find? (registry : Registry) (key : String) : Option Layout := registry.types.lookup key

/-- The layout under a key, which must be known. -/
def get (registry : Registry) (key : String) : Except LayoutError Layout :=
  match registry.find? key with
  | some layout => .ok layout
  | none => .error (.unknownType key)

/-- Whether there is a layout under a key. -/
def contains (registry : Registry) (key : String) : Bool := (registry.find? key).isSome

/-- The registry with a layout under a key: in the place of the one that stood there, or
at the end. -/
def put (registry : Registry) (key : String) (layout : Layout) : Registry :=
  ⟨Json.putMember key layout registry.types⟩

/-- Registers a layout under its name. -/
def register (layout : Layout) : Registering Unit := do
  ofExcept layout.validate
  let registry ← getThe Registry
  if registry.contains layout.name then
    throw (.invalidSchema (.declaration (.repeatedType layout.name)))
  set (registry.put layout.name layout)

/-- The outcome of each registration in turn, with the registry after it; a refused
layout does not end the session. -/
def run : List Layout → Registry → List (Except LayoutError Unit × Registry)
  | [], _ => []
  | layout :: layouts, registry =>
      let (outcome, next) := (register layout).perform registry
      (outcome, next) :: run layouts next

/-- The registry with one more layout. -/
def insert (registry : Registry) (layout : Layout) : Except LayoutError Registry :=
  match (register layout).perform registry with
  | (.ok _, next) => .ok next
  | (.error error, _) => .error error

/-- The registry of some layouts, unless one of them is refused. -/
def ofLayouts (layouts : List Layout) : Except LayoutError Registry :=
  layouts.foldlM insert empty

/-- Whether two registries hold the same layouts under the same keys. The order of
registration does not count. -/
def sameTypes (left right : Registry) : Bool :=
  left.types.length == right.types.length &&
    left.types.all fun entry => right.find? entry.1 == some entry.2

end Registry

end FixedLayout
