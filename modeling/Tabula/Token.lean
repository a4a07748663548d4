import Tabula.Text.Lowercase

/-!
# Tokens

The words and marks that a statement is made of.  A keyword is a keyword in any case; five of them
may also name a table or a column.
-/

namespace Tabula

/-- The words of the language. -/
inductive Keyword where
  | create | select | insert | update | delete | truncate | drop | grant | distinct
  | fromWord | whereWord | table | into | values | join | on | ifWord | not | existsWord | null
  | autoIncrement | count | set | order | byWord | withWord | time | zone | returning | inWord | and
  | or | asc | desc | limit | offset | is | forWord | default | localTimestamp | trueWord
  | falseWord | unique | index | collate | nocase | primary | key
deriving DecidableEq, Repr

namespace Keyword

/-- What each keyword is written as.  One has two spellings. -/
def spellings : List (String × Keyword) :=
  [("create", .create), ("select", .select), ("insert", .insert), ("update", .update),
   ("delete", .delete), ("truncate", .truncate), ("drop", .drop), ("grant", .grant),
   ("distinct", .distinct), ("from", .fromWord), ("where", .whereWord), ("table", .table),
   ("into", .into), ("values", .values), ("join", .join), ("on", .on), ("if", .ifWord),
   ("not", .not), ("exists", .existsWord), ("null", .null), ("autoincrement", .autoIncrement),
   ("auto_increment", .autoIncrement), ("count", .count), ("set", .set), ("order", .order),
   ("by", .byWord), ("with", .withWord), ("time", .time), ("zone", .zone),
   ("returning", .returning), ("in", .inWord), ("and", .and), ("or", .or), ("asc", .asc),
   ("desc", .desc), ("limit", .limit), ("offset", .offset), ("is", .is), ("for", .forWord),
   ("default", .default), ("localtimestamp", .localTimestamp), ("true", .trueWord),
   ("false", .falseWord), ("unique", .unique), ("index", .index), ("collate", .collate),
   ("nocase", .nocase), ("primary", .primary), ("key", .key)]

/-- The keyword a word is, in any case. -/
def ofWord? (word : String) : Option Keyword :=
  spellings.lookup (Text.lowercase word)

/-- The name of a keyword in messages. -/
def name : Keyword → String
  | .create => "Create"
  | .select => "Select"
  | .insert => "Insert"
  | .update => "Update"
  | .delete => "Delete"
  | .truncate => "Truncate"
  | .drop => "Drop"
  | .grant => "Grant"
  | .distinct => "Distinct"
  | .fromWord => "From"
  | .whereWord => "Where"
  | .table => "Table"
  | .into => "Into"
  | .values => "Values"
  | .join => "Join"
  | .on => "On"
  | .ifWord => "If"
  | .not => "Not"
  | .existsWord => "Exists"
  | .null => "Null"
  | .autoIncrement => "AutoIncrement"
  | .count => "Count"
  | .set => "Set"
  | .order => "Order"
  | .byWord => "By"
  | .withWord => "With"
  | .time => "Time"
  | .zone => "Zone"
  | .returning => "Returning"
  | .inWord => "In"
  | .and => "And"
  | .or => "Or"
  | .asc => "Asc"
  | .desc => "Desc"
  | .limit => "Limit"
  | .offset => "Offset"
  | .is => "Is"
  | .forWord => "For"
  | .default => "Default"
  | .localTimestamp => "LocalTimestamp"
  | .trueWord => "True"
  | .falseWord => "False"
  | .unique => "Unique"
  | .index => "Index"
  | .collate => "Collate"
  | .nocase => "Nocase"
  | .primary => "Primary"
  | .key => "Key"

/-- Whether the keyword may also name a table or a column. -/
def isSoft : Keyword → Bool
  | .time | .zone | .key | .nocase | .index => true
  | _ => false

end Keyword

/-- What a token is. -/
inductive TokenKind where
  /-- Blanks in a row, or a comment. -/
  | space
  | semicolon | comma | lparen | rparen | lt | gt | le | ge | eq | ne | star | period
  /-- A text between single quotes, or between doubled dollars. -/
  | string
  /-- A name between double quotes or grave accents. -/
  | quotedIdent
  | number | date
  | identifier
  /-- `NOW()` -/
  | now
  | keyword (k : Keyword)
deriving DecidableEq, Repr

/-- The name of a kind in messages. -/
def TokenKind.name : TokenKind → String
  | .space => "Space"
  | .semicolon => "Semicolon"
  | .comma => "Comma"
  | .lparen => "LParen"
  | .rparen => "RParen"
  | .lt => "Lt"
  | .gt => "Gt"
  | .le => "Le"
  | .ge => "Ge"
  | .eq => "Eq"
  | .ne => "Ne"
  | .star => "Star"
  | .period => "Period"
  | .string => "String"
  | .quotedIdent => "QuotedIdent"
  | .number => "Number"
  | .date => "Date"
  | .identifier => "Identifier"
  | .now => "Now"
  | .keyword k => k.name

/-- A token: its kind, the characters it stands for, and where it begins. -/
structure Token where
  kind : TokenKind
  lexeme : String
  /-- Characters before the token. -/
  position : Nat
deriving DecidableEq, Repr

/-- The tokens without the spaces between them. -/
def Token.withoutSpaces (tokens : List Token) : List Token :=
  tokens.filter (·.kind != .space)

end Tabula
