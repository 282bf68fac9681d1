import Cryptoki.Attribute.Printer
import Cryptoki.Object.Variant
import Cryptoki.Operation.Kind
import Cryptoki.Status.Table
import Cryptoki.Text.Utf8

/-! What can go wrong, and how it is told. -/
namespace Cryptoki

/-- The lengths and positions that are checked before a call. -/
inductive LengthField where
  | clientRandom
  | serverRandom
  | ivSizeInBits
  | clientIvBuffer
  | serverIvBuffer
  | cbcEncryptDataIv
  | gcmTag
  | gcmIv
  | ccmNonce
  | ccmMac
  | outputOffset
  deriving DecidableEq, Repr

def LengthField.name : LengthField → String
  | .clientRandom => "client random"
  | .serverRandom => "server random"
  | .ivSizeInBits => "IV size in bits"
  | .clientIvBuffer => "client IV buffer"
  | .serverIvBuffer => "server IV buffer"
  | .cbcEncryptDataIv => "CBC encrypt data IV"
  | .gcmTag => "GCM tag"
  | .gcmIv => "GCM IV"
  | .ccmNonce => "CCM nonce"
  | .ccmMac => "CCM MAC"
  | .outputOffset => "output offset"

/-- Why a native value is none of its attribute, or a value has no native form. -/
inductive ValueFault where
  | yearOutOfDate (year : Int)
  | notADate
  | nestedScalar
  | boolLength (length : Nat)
  | ulongLength (length : Nat)
  | partialWord (length : Nat)
  | rawAttributeArray
  | lengthOnly (length : Word)
  deriving DecidableEq, Repr

def ValueFault.message : ValueFault → String
  | .yearOutOfDate year =>
    "year " ++ (if year < 0 then "-" else "") ++ decimal year.natAbs ++ " does not fit CK_DATE"
  | .notADate => "CK_DATE must be 8 ASCII digits"
  | .nestedScalar => "nested template for a scalar attribute"
  | .boolLength n => "CK_BBOOL of " ++ decimal n ++ " bytes"
  | .ulongLength n => "CK_ULONG of " ++ decimal n ++ " bytes"
  | .partialWord n => decimal n ++ " bytes is not a whole number of CK_ULONG"
  | .rawAttributeArray => "attribute array given as raw bytes"
  | .lengthOnly n => "only the length (" ++ decimal n.toNat ++ ") was returned"

/-- Why a value of one type is none of another. -/
inductive ConversionFault where
  | date (component : DateComponent)
  | utf8 (fault : Utf8.Fault)
  | tooLarge
  | arrayLength
  deriving DecidableEq, Repr

def ConversionFault.message : ConversionFault → String
  | .date component => component.name ++ " was not in range"
  | .utf8 fault => fault.message
  | .tooLarge => "number too large to fit in target type"
  | .arrayLength => "could not convert slice to array"

inductive Error where
  | deviceStatus (status : Status)
  | unsupportedObjectVariant (objectClass : Word) (subtype : Option Word)
  | unsupportedInHostRuntime (family : ParameterFamily)
  | invalidParameterLength (field : LengthField) (expected actual : Nat)
  | parameterMismatch (mechanism : Word) (expected : ParameterExpectation)
      (actual : Option ParameterFamily)
  | operationAlreadyActive (kind : OperationKind)
  | operationNotActive (kind : OperationKind)
  | attributeUnavailable (code : Word)
  | attributeNotSet (code : Word)
  | immutableAttribute (code : Word)
  | undeclaredAttribute (code : Word) (variant : ObjectVariant)
  | unknownAttributeType (code : Word)
  | attributeKindMismatch (code : Word) (expected : AttributeKind)
  | invalidAttributeValue (code : Word) (fault : ValueFault)
  | staleObject (handle : Handle)
  | conversion (fault : ConversionFault)
  | templateWithoutHandle (variant : ObjectVariant)
  | readoutCount (received requested : Nat)
  | readoutType (received requested : Word)
  | contradictedIdentity (reported : Attribute) (variant : ObjectVariant)
  | overreportedOutput (written capacity : Nat)
  | other (text : String)
  deriving DecidableEq

namespace Error

def message : Error → String
  | deviceStatus s => "PKCS#11 device status: " ++ s.text
  | unsupportedObjectVariant c s =>
    "unsupported object variant: class " ++ hexOfWord c ++ ", subtype " ++
      Layout.option (s.map Layout.word)
  | unsupportedInHostRuntime f =>
    "the host runtime has no native layout for " ++ f.text ++ " parameters"
  | invalidParameterLength field expected actual =>
    "invalid length for " ++ field.name ++ ": expected " ++ decimal expected ++ " bytes, got " ++
      decimal actual
  | parameterMismatch m expected actual =>
    "mechanism " ++ mechanismName m ++ " expects " ++ expected.text ++ ", got " ++
      match actual with
      | none => "no parameters"
      | some f => f.text ++ " parameters"
  | operationAlreadyActive k =>
    "a " ++ k.name ++ " operation is already active on this session"
  | operationNotActive k => "no " ++ k.name ++ " operation is active on this session"
  | attributeUnavailable c => "attribute " ++ attributeName c ++ " is unavailable on the token"
  | attributeNotSet c => "attribute " ++ attributeName c ++ " carries no value"
  | immutableAttribute c =>
    "attribute " ++ attributeName c ++ " identifies the object variant and cannot be changed"
  | undeclaredAttribute c v => "attribute " ++ attributeName c ++ " is not declared by " ++ v.text
  | unknownAttributeType c => "unknown attribute type " ++ hexOfWord c
  | attributeKindMismatch c k => "attribute " ++ attributeName c ++ " holds " ++ k.name ++ " values"
  | invalidAttributeValue c fault =>
    "invalid native value for attribute " ++ attributeName c ++ ": " ++ fault.message
  | staleObject h => "object handle " ++ Layout.word h ++ " refers to a destroyed object"
  | conversion fault => "Conversion error: " ++ fault.message
  | templateWithoutHandle v => v.text ++ " is a local template and has no token handle"
  | readoutCount received requested =>
    "attribute read returned " ++ decimal received ++ " entries for " ++ decimal requested ++
      " requested"
  | readoutType received requested =>
    "attribute read answered " ++ hexOfWord received ++ " for " ++ hexOfWord requested
  | contradictedIdentity a v => "token reports " ++ a.text ++ " for a " ++ v.text
  | overreportedOutput written capacity =>
    "token reported " ++ decimal written ++ " bytes written into a " ++ decimal capacity ++
      " bytes buffer"
  | other text => text

/-- The word for what kind of error it is; those that only their message tells apart share one. -/
def category : Error → String
  | deviceStatus _ => "DeviceStatus"
  | unsupportedObjectVariant _ _ => "UnsupportedObjectVariant"
  | unsupportedInHostRuntime _ => "UnsupportedInHostRuntime"
  | invalidParameterLength _ _ _ => "InvalidParameterLength"
  | parameterMismatch _ _ _ => "ParameterMismatch"
  | operationAlreadyActive _ => "OperationAlreadyActive"
  | operationNotActive _ => "OperationNotActive"
  | attributeUnavailable _ => "AttributeUnavailable"
  | attributeNotSet _ => "AttributeNotSet"
  | immutableAttribute _ => "ImmutableAttribute"
  | undeclaredAttribute _ _ => "UndeclaredAttribute"
  | unknownAttributeType _ => "UnknownAttributeType"
  | attributeKindMismatch _ _ => "AttributeKindMismatch"
  | invalidAttributeValue _ _ => "InvalidAttributeValue"
  | staleObject _ => "StaleObject"
  | conversion _ => "Conversion"
  | templateWithoutHandle _ | readoutCount _ _ | readoutType _ _ | contradictedIdentity _ _
  | overreportedOutput _ _ | other _ => "Default"

/-- The status the token reported, if the error comes from the token. -/
def status? : Error → Option Status
  | deviceStatus s => some s
  | _ => none

end Error

def ObjectVariant.ofCodes (objectClass : Word) (subtype : Option Word) :
    Except Error ObjectVariant :=
  match ObjectVariant.ofCodes? objectClass subtype with
  | some v => .ok v
  | none => .error (.unsupportedObjectVariant objectClass subtype)

def Date.make (year month day : Int) : Except Error Date :=
  (Date.ofCalendar year month day).mapError fun c => .conversion (.date c)

end Cryptoki
