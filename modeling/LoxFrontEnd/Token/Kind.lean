/-!
# Token kinds

The lexical categories of Lox, the reserved words, and the characters that make a token on their own
or together with an equal sign. The lists are the definitions: every query is a search in one of them.
-/

namespace LoxFrontEnd

/-! ### Reserved words -/

inductive Keyword where
  | andWord
  | classWord
  | elseWord
  | falseWord
  | forWord
  | funWord
  | ifWord
  | nilWord
  | orWord
  | printWord
  | returnWord
  | superWord
  | thisWord
  | trueWord
  | varWord
  | whileWord
  | breakWord
  | continueWord
deriving DecidableEq

namespace Keyword

/-- The reserved words in the order of their table. -/
def all : List Keyword :=
  [andWord, classWord, elseWord, falseWord, forWord, funWord, ifWord, nilWord, orWord, printWord,
    returnWord, superWord, thisWord, trueWord, varWord, whileWord, breakWord, continueWord]

def spelling : Keyword → String
  | andWord => "and"
  | classWord => "class"
  | elseWord => "else"
  | falseWord => "false"
  | forWord => "for"
  | funWord => "fun"
  | ifWord => "if"
  | nilWord => "nil"
  | orWord => "or"
  | printWord => "print"
  | returnWord => "return"
  | superWord => "super"
  | thisWord => "this"
  | trueWord => "true"
  | varWord => "var"
  | whileWord => "while"
  | breakWord => "break"
  | continueWord => "continue"

def name : Keyword → String
  | andWord => "AND"
  | classWord => "CLASS"
  | elseWord => "ELSE"
  | falseWord => "FALSE"
  | forWord => "FOR"
  | funWord => "FUN"
  | ifWord => "IF"
  | nilWord => "NIL"
  | orWord => "OR"
  | printWord => "PRINT"
  | returnWord => "RETURN"
  | superWord => "SUPER"
  | thisWord => "THIS"
  | trueWord => "TRUE"
  | varWord => "VAR"
  | whileWord => "WHILE"
  | breakWord => "BREAK"
  | continueWord => "CONTINUE"

def ofSpelling? (word : String) : Option Keyword := all.find? fun k => k.spelling == word

theorem mem_all (k : Keyword) : k ∈ all := by cases k <;> decide

theorem ofSpelling?_spelling (k : Keyword) : ofSpelling? k.spelling = some k := by
  cases k <;> decide

theorem spelling_of_ofSpelling? {word : String} {k : Keyword} (h : ofSpelling? word = some k) :
    k.spelling = word := by
  have hs := List.find?_some h
  exact eq_of_beq hs

theorem ofSpelling?_eq_some_iff {word : String} {k : Keyword} :
    ofSpelling? word = some k ↔ k.spelling = word :=
  ⟨spelling_of_ofSpelling?, fun h => h ▸ ofSpelling?_spelling k⟩

end Keyword

/-- The word is reserved; spelling and case count. -/
def isKeyword (word : String) : Bool := (Keyword.ofSpelling? word).isSome

theorem isKeyword_iff {word : String} : isKeyword word = true ↔ ∃ k : Keyword, k.spelling = word := by
  simp only [isKeyword, Option.isSome_iff_exists, Keyword.ofSpelling?_eq_some_iff]

/-! ### Kinds -/

inductive Kind where
  | leftParen
  | rightParen
  | leftBrace
  | rightBrace
  | comma
  | dot
  | minus
  | plus
  | semicolon
  | slash
  | star
  | percent
  | colon
  | question
  | bang
  | bangEqual
  | equal
  | equalEqual
  | greater
  | greaterEqual
  | less
  | lessEqual
  | identifier
  | string
  | number
  | keyword (word : Keyword)
  | endOfInput
deriving DecidableEq

namespace Kind

open Keyword

/-- The kinds in the order of their numbers. -/
def all : List Kind :=
  [leftParen, rightParen, leftBrace, rightBrace, comma, dot, minus, plus, semicolon, slash, star,
    percent, colon, question, bang, bangEqual, equal, equalEqual, greater, greaterEqual, less,
    lessEqual, identifier, string, number, keyword andWord, keyword classWord, keyword elseWord,
    keyword falseWord, keyword funWord, keyword forWord, keyword ifWord, keyword nilWord,
    keyword orWord, keyword printWord, keyword returnWord, keyword superWord, keyword thisWord,
    keyword trueWord, keyword varWord, keyword whileWord, keyword breakWord, keyword continueWord,
    endOfInput]

def name : Kind → String
  | leftParen => "LEFT_PAREN"
  | rightParen => "RIGHT_PAREN"
  | leftBrace => "LEFT_BRACE"
  | rightBrace => "RIGHT_BRACE"
  | comma => "COMMA"
  | dot => "DOT"
  | minus => "MINUS"
  | plus => "PLUS"
  | semicolon => "SEMICOLON"
  | slash => "SLASH"
  | star => "STAR"
  | percent => "PERCENT"
  | colon => "COLON"
  | question => "QUESTION"
  | bang => "BANG"
  | bangEqual => "BANG_EQUAL"
  | equal => "EQUAL"
  | equalEqual => "EQUAL_EQUAL"
  | greater => "GREATER"
  | greaterEqual => "GREATER_EQUAL"
  | less => "LESS"
  | lessEqual => "LESS_EQUAL"
  | identifier => "IDENTIFIER"
  | string => "STRING"
  | number => "NUMBER"
  | keyword word => word.name
  | endOfInput => "EOF"

def ofName? (name : String) : Option Kind := all.find? fun k => k.name == name

def ordinal (k : Kind) : Nat := all.idxOf k + 1

theorem ofName?_name (k : Kind) : ofName? k.name = some k := by
  cases k with
  | keyword word => cases word <;> decide
  | _ => decide

theorem name_injective {k l : Kind} (h : k.name = l.name) : k = l := by
  have hk := ofName?_name k
  rw [h, ofName?_name l] at hk
  exact (Option.some.inj hk).symm

def isKeyword : Kind → Bool
  | keyword _ => true
  | _ => false

def literals : List Kind :=
  [string, number, keyword trueWord, keyword falseWord, keyword nilWord]

def isLiteral (k : Kind) : Bool := literals.contains k

/-! ### Marks -/

/-- The characters that are a token on their own. -/
def singles : List (Char × Kind) :=
  [('(', leftParen), (')', rightParen), ('{', leftBrace), ('}', rightBrace), (',', comma), ('.', dot),
    ('-', minus), ('+', plus), (';', semicolon), ('*', star), ('%', percent), (':', colon),
    ('?', question)]

def single? (c : Char) : Option Kind := singles.lookup c

/-- The characters that may take an equal sign: the kind without it and the kind with it. -/
def equalSuffixed : List (Char × Kind × Kind) :=
  [('!', bang, bangEqual), ('=', equal, equalEqual), ('<', less, lessEqual),
    ('>', greater, greaterEqual)]

def equalSuffixed? (c : Char) : Option (Kind × Kind) := equalSuffixed.lookup c

/-- The kind of a word: its own if it is reserved. -/
def ofWord (word : String) : Kind :=
  match Keyword.ofSpelling? word with
  | some k => keyword k
  | none => identifier

end Kind

end LoxFrontEnd
