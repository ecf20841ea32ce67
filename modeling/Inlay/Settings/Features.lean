/-!
The kinds of hints that can be switched on and off.
-/

namespace Inlay

inductive Feature
  | variableType
  | functionVariableType
  | functionReturnType
  | functionParameterType
  | propertyType
  | objectPatternType
  | arrayPatternType
  | objectLiteralType
  | parameterName
  | highlightAny
  deriving DecidableEq, Repr

namespace Feature

/-- Every feature, in the order in which settings list them. -/
def all : List Feature :=
  [variableType, functionVariableType, functionReturnType, functionParameterType, propertyType,
   objectPatternType, arrayPatternType, objectLiteralType, parameterName, highlightAny]

/-- The name of the feature in settings. -/
def key : Feature → String
  | variableType => "variableType"
  | functionVariableType => "functionVariableType"
  | functionReturnType => "functionReturnType"
  | functionParameterType => "functionParameterType"
  | propertyType => "propertyType"
  | objectPatternType => "objectPatternType"
  | arrayPatternType => "arrayPatternType"
  | objectLiteralType => "objectLiteralType"
  | parameterName => "parameterName"
  | highlightAny => "highlightAny"

end Feature

/-- Which features are on. -/
structure Features where
  enabled : Feature → Bool

namespace Features

/-- All but the types of variables that hold functions. -/
def standard : Features := ⟨fun feature => feature != .functionVariableType⟩

def set (features : Features) (feature : Feature) (on : Bool) : Features :=
  ⟨fun other => if other = feature then on else features.enabled other⟩

/-- Enabled in one of the two. -/
def join (a b : Features) : Features := ⟨fun feature => a.enabled feature || b.enabled feature⟩

end Features

end Inlay
