import Lexis.Text.Quoted

/-!
The kinds of tokens: the marks (punctuation and operators), the keywords, and the kinds of literals,
names and the end of the text. Every kind has a name by which a parser knows it and a name as a
constant; `Kind.all` lists the kinds in their fixed order, and `Kind.ofName` finds them again.
-/

namespace Lexis

/-! ### Marks -/

/-- Punctuation and operators. The tab and the carriage return count among them. -/
inductive Mark
  | leftParen | rightParen | leftBrace | rightBrace | comma | period | minus | plus | semicolon
  | slash | asterisk | carriageReturn | tab
  | bang | bangEqual | equal | equalEqual | greater | greaterEqual | less | lessEqual
  deriving DecidableEq

namespace Mark

def all : List Mark :=
  [leftParen, rightParen, leftBrace, rightBrace, comma, period, minus, plus, semicolon, slash,
    asterisk, carriageReturn, tab, bang, bangEqual, equal, equalEqual, greater, greaterEqual, less,
    lessEqual]

def spelling : Mark → List Char
  | leftParen => ['(']
  | rightParen => [')']
  | leftBrace => ['{']
  | rightBrace => ['}']
  | comma => [',']
  | period => ['.']
  | minus => ['-']
  | plus => ['+']
  | semicolon => [';']
  | slash => ['/']
  | asterisk => ['*']
  | carriageReturn => ['\r']
  | tab => ['\t']
  | bang => ['!']
  | bangEqual => ['!', '=']
  | equal => ['=']
  | equalEqual => ['=', '=']
  | greater => ['>']
  | greaterEqual => ['>', '=']
  | less => ['<']
  | lessEqual => ['<', '=']

def name : Mark → String
  | leftParen => "LeftParen"
  | rightParen => "RightParen"
  | leftBrace => "LeftBrace"
  | rightBrace => "RightBrace"
  | comma => "Comma"
  | period => "Period"
  | minus => "Minus"
  | plus => "Plus"
  | semicolon => "SemiColon"
  | slash => "Slash"
  | asterisk => "Asterisk"
  | carriageReturn => "CarriageReturn"
  | tab => "Tab"
  | bang => "Bang"
  | bangEqual => "BangEqual"
  | equal => "Equal"
  | equalEqual => "EqualEqual"
  | greater => "GreaterThan"
  | greaterEqual => "GreaterThanEqual"
  | less => "LessThan"
  | lessEqual => "LessThanEqual"

def constant : Mark → String
  | leftParen => "LEFT_PAREN"
  | rightParen => "RIGHT_PAREN"
  | leftBrace => "LEFT_BRACE"
  | rightBrace => "RIGHT_BRACE"
  | comma => "COMMA"
  | period => "PERIOD"
  | minus => "MINUS"
  | plus => "PLUS"
  | semicolon => "SEMICOLON"
  | slash => "SLASH"
  | asterisk => "ASTERISK"
  | carriageReturn => "CARRIAGE_RETURN"
  | tab => "TAB"
  | bang => "BANG"
  | bangEqual => "BANG_EQUAL"
  | equal => "EQUAL"
  | equalEqual => "EQUAL_EQUAL"
  | greater => "GREATER_THAN"
  | greaterEqual => "GREATER_THAN_EQUAL"
  | less => "LESS_THAN"
  | lessEqual => "LESS_THAN_EQUAL"

/-- The mark that a character is whatever follows it. The slash is not among them, since a second
slash makes a comment of it. -/
def solo? : Char → Option Mark
  | '(' => some leftParen
  | ')' => some rightParen
  | '{' => some leftBrace
  | '}' => some rightBrace
  | ',' => some comma
  | '.' => some period
  | '-' => some minus
  | '+' => some plus
  | ';' => some semicolon
  | '*' => some asterisk
  | '\r' => some carriageReturn
  | '\t' => some tab
  | _ => none

/-- The two marks that a character may open: the one without an equals sign after it, and the one
with it. -/
def pair? : Char → Option (Mark × Mark)
  | '!' => some (bang, bangEqual)
  | '=' => some (equal, equalEqual)
  | '>' => some (greater, greaterEqual)
  | '<' => some (less, lessEqual)
  | _ => none

theorem mem_all (m : Mark) : m ∈ all := by cases m <;> decide

theorem spelling_ne_nil (m : Mark) : m.spelling ≠ [] := by
  cases m <;> exact List.cons_ne_nil _ _

theorem spelling_of_solo? {c : Char} {m : Mark} (h : solo? c = some m) : m.spelling = [c] := by
  unfold solo? at h
  split at h <;> cases h <;> rfl

theorem spelling_of_pair? {c : Char} {bare paired : Mark} (h : pair? c = some (bare, paired)) :
    bare.spelling = [c] ∧ paired.spelling = [c, '='] := by
  unfold pair? at h
  split at h <;> cases h <;> exact ⟨rfl, rfl⟩

end Mark

/-! ### Keywords -/

/-- The fifteen kinds that a word can have by its spelling. -/
inductive Keyword
  | andWord | elseWord | falseWord | functionWord | forWord | ifWord | noneWord | orWord | printWord
  | returnWord | thisWord | trueWord | structWord | letWord | whileWord
  deriving DecidableEq

namespace Keyword

def all : List Keyword :=
  [andWord, elseWord, falseWord, functionWord, forWord, ifWord, noneWord, orWord, printWord,
    returnWord, thisWord, trueWord, structWord, letWord, whileWord]

theorem mem_all (k : Keyword) : k ∈ all := by cases k <;> decide

def name : Keyword → String
  | andWord => "And"
  | elseWord => "Else"
  | falseWord => "False"
  | functionWord => "Function"
  | forWord => "For"
  | ifWord => "If"
  | noneWord => "None"
  | orWord => "Or"
  | printWord => "Print"
  | returnWord => "Return"
  | thisWord => "This"
  | trueWord => "True"
  | structWord => "Struct"
  | letWord => "Let"
  | whileWord => "While"

def constant : Keyword → String
  | andWord => "AND"
  | elseWord => "ELSE"
  | falseWord => "FALSE"
  | functionWord => "FUNCTION"
  | forWord => "FOR"
  | ifWord => "IF"
  | noneWord => "NONE"
  | orWord => "OR"
  | printWord => "PRINT"
  | returnWord => "RETURN"
  | thisWord => "THIS"
  | trueWord => "TRUE"
  | structWord => "STRUCT"
  | letWord => "LET"
  | whileWord => "WHILE"

/-- The reserved words of the language with their kinds, in the order of the standard table. -/
def standard : List (String × Keyword) :=
  [("and", andWord), ("struct", structWord), ("else", elseWord), ("false", falseWord),
    ("for", forWord), ("fn", functionWord), ("if", ifWord), ("none", noneWord), ("or", orWord),
    ("print", printWord), ("return", returnWord), ("this", thisWord), ("true", trueWord),
    ("let", letWord), ("while", whileWord)]

end Keyword

/-! ### Kinds -/

/-- What a token is. -/
inductive Kind
  | mark (mark : Mark)
  | identifier
  | string
  | integer
  | keyword (keyword : Keyword)
  | eof
  deriving DecidableEq

/-- A name that no kind has. -/
structure UnknownKind where
  name : String
  deriving DecidableEq

def UnknownKind.message (unknown : UnknownKind) : String :=
  Text.quoted unknown.name ++ " is not a valid TokenType"

namespace Kind

def all : List Kind :=
  Mark.all.map mark ++ [identifier, string, integer] ++ Keyword.all.map keyword ++ [eof]

/-- The name by which a parser knows the kind. -/
def name : Kind → String
  | mark m => m.name
  | identifier => "Identifier"
  | string => "String"
  | integer => "Integer"
  | keyword k => k.name
  | eof => "EOF"

def constant : Kind → String
  | mark m => m.constant
  | identifier => "IDENTIFIER"
  | string => "STRING"
  | integer => "INTEGER"
  | keyword k => k.constant
  | eof => "EOF"

def ofName (name : String) : Except UnknownKind Kind :=
  match all.find? (·.name = name) with
  | some kind => .ok kind
  | none => .error ⟨name⟩

theorem mem_all (kind : Kind) : kind ∈ all := by
  cases kind with
  | mark m => simp [all, Mark.mem_all m]
  | keyword k => simp [all, Keyword.mem_all k]
  | _ => simp [all]

/-- **A kind is found again by its name.** -/
theorem ofName_name (kind : Kind) : ofName kind.name = .ok kind := by
  have found : ∀ k ∈ all, all.find? (·.name = k.name) = some k := by decide
  simp only [ofName, found kind (mem_all kind)]

/-- The kind is one of a word with a spelling of its own. -/
def isKeyword : Kind → Bool
  | keyword _ => true
  | _ => false

def isLiteral : Kind → Bool
  | integer | string => true
  | _ => false

end Kind

end Lexis
