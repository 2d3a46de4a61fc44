import SecurityFabric.ToMathlib.SqlLike
import SecurityFabric.ToMathlib.GoMap

/-! # Obligation types and the names in their scopes

An obligation type applies to all resource types or to some, and to all operations of each of them or to some. Its scope
is stored with ids; the names are filled in when it is read, from the resource types that exist. A panic is `none`: an
index out of range, or a stored scope that cannot be read.
-/

namespace SecurityFabric.Authorization.ObligationType

structure OperationName where
  (language value : String)

structure ResourceTypeOperation where
  id : String
  name : List OperationName

structure ResourceType where
  (id name : String)
  operation : List ResourceTypeOperation

structure ObligationOperation where
  id : String
  name : String := ""
deriving DecidableEq

structure ObligationOperationsScopeInfo where
  unlimited : Bool
  operations : List ObligationOperation
deriving DecidableEq

structure ObligationResourceTypeScope where
  resourceTypeID : String
  resourceTypeName : String := ""
  operationsScope : ObligationOperationsScopeInfo
deriving DecidableEq

structure ObligationTypeInfo where
  id : String
  unlimited : Bool
  types : List ObligationResourceTypeScope
deriving DecidableEq

/-- A row of `t_obligation_type`, with the resource types of its scope and the operations of each, unless they are
unlimited. -/
structure Row where
  id : String
  scope : Option (List (String × Option (List String)))

/-- What a row says, without names. -/
def Row.stored (row : Row) : ObligationTypeInfo where
  id := row.id
  unlimited := row.scope.isNone
  types := (row.scope.getD []).map fun type =>
    { resourceTypeID := type.1, operationsScope := ⟨type.2.isNone, (type.2.getD []).map ({ id := · })⟩ }

/-- `stringToResourceTypeScopeInfo`. If there are no operations, null is stored for them, which is not of the type
`[]any`. -/
def Row.info (row : Row) : Option ObligationTypeInfo :=
  if (row.scope.getD []).any (·.2 = some []) then none else some row.stored

def getOperationNameByLanguage (folding : CaseFolding) (language : String) (operationName : List OperationName) :
    String :=
  ((operationName.find? fun name => folding.equalFold name.language language).map (·.value)).getD ""

structure Names where
  operationInfoMap : GoMap String (GoMap String String)
  resourceTypeInfoMap : GoMap String ResourceType

def getResourceTypesOperation (folding : CaseFolding) (language : String) (resourceTypeInfos : List ResourceType) :
    Names :=
  let resourceTypeInfoMap := GoMap.assign (·.id) id resourceTypeInfos ∅
  let opeNames (resourceTypeInfo : ResourceType) : GoMap String String :=
    GoMap.assign (·.id) (fun operation => getOperationNameByLanguage folding language operation.name)
      resourceTypeInfo.operation ∅
  ⟨GoMap.filterMap (fun _ resourceTypeInfo => some (opeNames resourceTypeInfo))
    resourceTypeInfoMap, resourceTypeInfoMap⟩

variable (names : Names)

def fillOperations (type : ObligationResourceTypeScope) : ObligationResourceTypeScope :=
  let operationNames := (names.operationInfoMap.lookup type.resourceTypeID).getD ∅
  { type with operationsScope.operations := type.operationsScope.operations.map fun operation =>
      { operation with name := (operationNames.lookup operation.id).getD "" } }

/-- The turn of a type in `GetByID`. -/
def fillType (type : ObligationResourceTypeScope) : ObligationResourceTypeScope :=
  match names.resourceTypeInfoMap.lookup type.resourceTypeID with
  | none => type
  | some resourceTypeInfo =>
    let type := { type with resourceTypeName := resourceTypeInfo.name }
    if type.operationsScope.unlimited then type else fillOperations names type

/-- `GetByID`, for the row with the id. -/
def getByID (row : Row) : Option ObligationTypeInfo := do
  let info ← row.info
  return if info.unlimited then info else { info with types := info.types.map (fillType names) }

/-- The turn of the type `j` in the entry `i` of `Get`. The name goes to the type `i`, whose operations are asked for.
-/
def fillTypeAt (i : Nat) (types : List ObligationResourceTypeScope) (j : Nat) :
    Option (List ObligationResourceTypeScope) := do
  let type ← types[j]?
  match names.resourceTypeInfoMap.lookup type.resourceTypeID with
  | none => return types
  | some resourceTypeInfo =>
    let named ← types[i]?
    let types := types.set i { named with resourceTypeName := resourceTypeInfo.name }
    return if named.operationsScope.unlimited then types else types.modify j (fillOperations names)

/-- The loop of `Get` from the entry `i` on. It ends at an entry that is unlimited. -/
def getFrom : Nat → List ObligationTypeInfo → Option (List ObligationTypeInfo)
  | _, [] => some []
  | i, info :: rest =>
    if info.unlimited then some (info :: rest)
    else do
      let types ← (List.range info.types.length).foldlM (fillTypeAt names i) info.types
      let rest ← getFrom (i + 1) rest
      return { info with types := types } :: rest

/-- `Get`, for the rows that the database lists. -/
def get (rows : List Row) : Option (List ObligationTypeInfo) := do getFrom names 0 (← rows.mapM Row.info)

end SecurityFabric.Authorization.ObligationType
