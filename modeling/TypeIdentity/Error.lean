import TypeIdentity.PathCodec.Token
import TypeIdentity.Text.Quoted

/-! # Errors

Every failure is recorded as its cause; `Error.message` is the only place that words them.
-/
namespace TypeIdentity
open Text PathCodec

/-- What is wrong with a text that should denote a type or a part of one. -/
inductive Flaw
  | notABracket (c : Char)
  | notASeparator (c : Char)
  | unbalanced (c : Char)
  | unterminatedQuote
  | unclosedBracket
  | emptyPart (separator : Char)
  | badTag (error : QuoteError)
  | emptyField
  | emptyFieldName
  | emptyId
  | missingElement
  | arrayLength (text : String) (error : NumeralError)
  | incompleteMap
  | afterChanElement
  | detachedParameters
  | innerEllipsis
  | afterResults
  | fieldName (name : String)
  | afterTypeArguments
  | unqualifiedGeneric
  | notQualified
  | noTypeArguments
  | bareKeyword
  | unexpectedToken
  | expected (c : Char)
  | afterBody (keyword : String)
  | badToken (error : TokenError)
  | openTypeArguments
  deriving DecidableEq, Repr

/-- Which category of types has no place in the operation. -/
inductive Unsupported
  | interfaceElement (entry : String)
  | unresolvedParameter (id : String)
  | typeParameter (name : String)
  | resultTuple
  | constraintUnion
  | uninstantiated (name : String)
  | namedUnderlying (name : String)
  | embeddedField (type : String)
  | unnamedReceiver (type : String)
  deriving DecidableEq, Repr

/-- Why a named type yields no declaration. -/
inductive LookupReason
  | neverDefined
  | notLoaded (path : String)
  | noSuchType
  deriving DecidableEq, Repr

/-- What a computation ends with instead of a result. -/
inductive Error
  | malformed (input : String) (flaw : Flaw)
  | arity (subject : String) (expected actual : Nat)
  | unsupported (category : Unsupported)
  | lookup (path name : String) (reason : LookupReason)
  | redefined (name : String)
  | traversalLimit (limit : Nat) (place : String)
  /-- A sum does not fit into its word: the computation is cut off, and nobody is answered. -/
  | overflow
  deriving DecidableEq, Repr

def Flaw.message : Flaw → String
  | notABracket c => "invalid bracket " ++ shownQuoted c
  | notASeparator c => "invalid separator " ++ shownQuoted c
  | unbalanced c => "unbalanced " ++ shownQuoted c
  | unterminatedQuote => "unterminated quoted string"
  | unclosedBracket => "unclosed bracket"
  | emptyPart separator => "empty element between " ++ shownQuoted separator
  | badTag error => error.message
  | emptyField => "empty field"
  | emptyFieldName => "empty field name"
  | emptyId => "empty type id"
  | missingElement => "missing element type"
  | arrayLength text error => "array length " ++ shown text ++ ": " ++ error.message
  | incompleteMap => "map needs key and element types"
  | afterChanElement => "trailing text after channel element"
  | detachedParameters => "expected '(' to open parameters"
  | innerEllipsis => "'...' on a non-final parameter"
  | afterResults => "trailing text after results"
  | fieldName name => "invalid field name " ++ shown name
  | afterTypeArguments => "trailing text after type arguments"
  | unqualifiedGeneric => "type arguments on an unqualified name"
  | notQualified => "expected path.Name"
  | noTypeArguments => "empty type argument list"
  | bareKeyword => "type keyword without a body"
  | unexpectedToken => "unexpected token"
  | expected c => "expected " ++ shownQuoted c
  | afterBody keyword => "trailing text after " ++ keyword ++ " body"
  | badToken error => error.message
  | openTypeArguments => "unterminated type argument list"

def Unsupported.message : Unsupported → String
  | interfaceElement entry => "interface element " ++ shown entry
  | unresolvedParameter id => "unresolved type parameter " ++ shown id
  | typeParameter name => "type parameter " ++ name
  | resultTuple => "result tuple"
  | constraintUnion => "constraint union"
  | uninstantiated name => "uninstantiated generic " ++ name
  | namedUnderlying name => name ++ ": underlying type must not be a named type"
  | embeddedField type => "embedded field of type " ++ type
  | unnamedReceiver type => "method on unnamed type " ++ type

def LookupReason.message : LookupReason → String
  | neverDefined => "declared but never defined"
  | notLoaded path => "package " ++ shown path ++ " is not loaded"
  | noSuchType => "no such type in package"

def Error.message : Error → String
  | malformed input flaw => "malformed type literal " ++ shown input ++ ": " ++ flaw.message
  | arity subject expected actual =>
    subject ++ ": expected " ++ toString expected ++ " type arguments, got " ++ toString actual
  | unsupported category => "unsupported type category: " ++ category.message
  | lookup path name reason =>
    "lookup of " ++ path ++ "." ++ name ++ " failed: " ++ reason.message
  | redefined name => name ++ " is already defined"
  | traversalLimit limit place =>
    "embedding traversal exceeded " ++ toString limit ++ " pending steps at " ++ place
  | overflow => "attempt to add with overflow"

end TypeIdentity
