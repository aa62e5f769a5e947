import TypeIdentity.Unicode.Alphabetic
import TypeIdentity.Unicode.Numeric
import TypeIdentity.Unicode.Uppercase

/-! # Identifiers

An identifier is a letter or underscore followed by letters, digits and underscores; it is exported
when it begins with a capital letter.
-/
namespace TypeIdentity

def isAlphanumeric (c : Char) : Bool := Unicode.isAlphabetic c || Unicode.isNumeric c

/-- What an identifier may begin with. -/
def isIdentStart (c : Char) : Bool := c = '_' || Unicode.isAlphabetic c

/-- What an identifier may go on with. -/
def isIdentRest (c : Char) : Bool := c = '_' || isAlphanumeric c

def isIdentifier : List Char → Bool
  | [] => false
  | c :: rest => isIdentStart c && rest.all isIdentRest

/-- Whether a member of this name is visible outside its package. -/
def isExported (name : String) : Bool := name.toList.head?.any Unicode.isUppercase

end TypeIdentity
