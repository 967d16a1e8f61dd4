import ODataQuery.Value.Basic

/-!
# Enumeration types

## Main definitions

- `EnumType` — a named list of members
- `EnumType.normalize?` — member names, checked and put in declaration order
- `EnumType.value?` — the value with these members
-/

namespace ODataQuery

/-- An enumeration type. -/
structure EnumType where
  /-- The qualified name. -/
  name : String
  /-- The member names in declaration order. -/
  members : List String
  /-- Whether several members can be combined. -/
  isFlags : Bool := false
deriving DecidableEq

namespace EnumType

/-- Whether the type declares a member of this name. -/
def hasMember (type : EnumType) (name : String) : Bool := type.members.contains name

/-- The named members, once each, in declaration order. There must be at least one name, all
names must be declared, and only a flags type combines several members. -/
def normalize? (type : EnumType) (names : List String) : Option (List String) :=
  if names.isEmpty || !names.all type.hasMember then none
  else
    let chosen := type.members.filter names.contains
    if 1 < chosen.length && !type.isFlags then none else some chosen

/-- The value with the named members. -/
def value? (type : EnumType) (names : List String) : Option Value :=
  (type.normalize? names).map fun members => .enumeration ⟨type.name, members⟩

end EnumType

end ODataQuery
