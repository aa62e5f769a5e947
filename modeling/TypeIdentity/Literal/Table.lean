import TypeIdentity.Literal.Parser
import TypeIdentity.PathCodec.Basic

/-! # Interned literals

A table keeps literals under their canonical text and under the ids they were parsed from.  The
first literal stored for a canonical text is the one everybody gets.  Parsing may consult a table, a
path codec, or both, and leaves in them what it has learnt, also when it fails later.
-/
namespace TypeIdentity

/-- Literals by canonical text and by id. -/
structure LiteralTable where
  entries : Std.HashMap String TypeLiteral := ∅

namespace LiteralTable

def empty : LiteralTable := {}

def get? (table : LiteralTable) (id : String) : Option TypeLiteral := table.entries[id]?

def size (table : LiteralTable) : Nat := table.entries.size

def isEmpty (table : LiteralTable) : Bool := table.size = 0

/-- Stores a literal under its canonical text and returns the one that is stored there. -/
def intern (table : LiteralTable) (lit : TypeLiteral) : TypeLiteral × LiteralTable :=
  let key := lit.canonical
  match table.entries[key]? with
  | some stored => (stored, table)
  | none => (lit, ⟨table.entries.insert key lit⟩)

/-- The same, and stores the result under an id that has none yet. -/
def internAs (table : LiteralTable) (id : String) (lit : TypeLiteral) :
    TypeLiteral × LiteralTable :=
  let (stored, table) := table.intern lit
  (stored, ⟨table.entries.insertIfNew id stored⟩)

end LiteralTable

structure ParseTables where
  literals : LiteralTable := .empty
  codec : PathCodec := .empty

structure ParseOptions where
  useLiterals : Bool
  useCodec : Bool
  deriving DecidableEq, Repr

/-- Computations that may fail but keep what the tables have learnt. -/
abbrev TableM := ExceptT Error (StateM ParseTables)

namespace ParseTables

def decodePath (token : String) : TableM String := fun tables =>
  let (answer, codec) := tables.codec.unwrap token
  (answer, { tables with codec })

def share (lit : TypeLiteral) : TableM TypeLiteral := fun tables =>
  let (stored, literals) := tables.literals.intern lit
  (.ok stored, { tables with literals })

def keep (id : String) (lit : TypeLiteral) : TableM TypeLiteral := fun tables =>
  let (stored, literals) := tables.literals.internAs id lit
  (.ok stored, { tables with literals })

def known (id : String) : TableM (Option TypeLiteral) := fun tables =>
  (.ok (tables.literals.get? id), tables)

/-- Meets the requests of the parser from the chosen tables. -/
def services (options : ParseOptions) : ParseServices TableM where
  known id := if options.useLiterals then known id else return none
  decodePath token := if options.useCodec then decodePath token else return token
  share lit := if options.useLiterals then share lit else return lit
  keep id lit := if options.useLiterals then keep id lit else return lit

def parse (options : ParseOptions) (id : String) (tables : ParseTables) :
    Except Error TypeLiteral × ParseTables :=
  parseWith (services options) id.toList tables

end ParseTables
end TypeIdentity
