import FixedLayout.Kind
import FixedLayout.Registry.Shape
import FixedLayout.Word

/-!
# Errors of layouts

Every cause for which declaring, sizing, encoding or decoding is refused, with
the one text that reports it.
-/

namespace FixedLayout

/-- A fault of a declaration. The owner of a field is a struct, or a variant
written behind the name of its enum. -/
inductive DeclarationFault where
  | tooManyVariants (type : String) (count : Nat)
  | repeatedVariant (type variant : String)
  | repeatedField (owner field : String)
  | repeatedType (type : String)
  deriving DecidableEq

/-- The text of a fault. -/
def DeclarationFault.message : DeclarationFault → String
  | tooManyVariants type count =>
      "enum `" ++ type ++ "` declares " ++ toString count ++
        " variants, at most 256 fit a one-byte discriminant"
  | repeatedVariant type variant => "duplicate variant `" ++ variant ++ "` in `" ++ type ++ "`"
  | repeatedField owner field => "duplicate field `" ++ field ++ "` in `" ++ owner ++ "`"
  | repeatedType type => "duplicate type `" ++ type ++ "`"

/-- Why a schema, or the text of a registry, is invalid. -/
inductive SchemaFault where
  | malformed
  | shape (fault : Registry.ShapeFault)
  | declaration (fault : DeclarationFault)
  deriving DecidableEq

/-- The text of a fault. -/
def SchemaFault.message : SchemaFault → String
  | malformed => "json syntax"
  | shape fault => fault.message
  | declaration fault => fault.message

/-- Why an operation on layouts and values fails. -/
inductive LayoutError where
  | unknownVariant (type variant : String)
  | unknownDiscriminant (type : String) (tag : UInt8)
  | truncatedInput (type : String) (needed available : Nat)
  | missingField (owner field : String)
  | unknownField (owner field : String)
  | fieldTypeMismatch (owner field : String) (declared found : FieldType)
  | unexpectedPayload (type variant : String)
  | missingPayload (type variant : String)
  | kindMismatch (type : String) (kind : Kind)
  | trailingBytes (type : String) (count : Nat)
  | unknownType (type : String)
  | invalidSchema (fault : SchemaFault)
  deriving DecidableEq

/-- The text of an error. -/
def LayoutError.message : LayoutError → String
  | unknownVariant type variant =>
      "unknown variant `" ++ variant ++ "` for enum `" ++ type ++ "`"
  | unknownDiscriminant type tag =>
      "unknown discriminant " ++ toString tag.toNat ++ " for enum `" ++ type ++ "`"
  | truncatedInput type needed available =>
      "truncated input for `" ++ type ++ "`: needed " ++ toString needed ++ " bytes, " ++
        toString available ++ " available"
  | missingField owner field => "missing field `" ++ field ++ "` in `" ++ owner ++ "`"
  | unknownField owner field => "unknown field `" ++ field ++ "` in `" ++ owner ++ "`"
  | fieldTypeMismatch owner field declared found =>
      "field `" ++ field ++ "` of `" ++ owner ++ "` is declared " ++ declared.name ++ ", got " ++
        found.name
  | unexpectedPayload type variant =>
      "variant `" ++ variant ++ "` of `" ++ type ++ "` carries no payload"
  | missingPayload type variant =>
      "variant `" ++ variant ++ "` of `" ++ type ++ "` requires a payload"
  | kindMismatch type kind => "`" ++ type ++ "` is a " ++ kind.name ++ " type"
  | trailingBytes type count => toString count ++ " trailing bytes after `" ++ type ++ "`"
  | unknownType type => "unknown type `" ++ type ++ "`"
  | invalidSchema fault => "invalid schema: " ++ fault.message

end FixedLayout
