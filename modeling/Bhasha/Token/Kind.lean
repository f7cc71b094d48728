/-!
# Kinds of tokens

A token is a symbol, a keyword, an identifier, a literal, an illegal character
or the end of the input.  Symbols and keywords are fixed spellings; a keyword
may have a second spelling, and the first one is the canonical one.
-/

namespace Bhasha

/-- The operators and delimiters. -/
inductive Symbol where
  | assign
  | plus
  | minus
  | bang
  | asterisk
  | slash
  | less
  | greater
  | lessEqual
  | greaterEqual
  | equal
  | notEqual
  | comma
  | semicolon
  | colon
  | leftParen
  | rightParen
  | leftBrace
  | rightBrace
  | leftBracket
  | rightBracket
deriving DecidableEq

namespace Symbol

/-- The characters of a symbol. -/
def glyphs : Symbol → List Char
  | .assign => ['=']
  | .plus => ['+']
  | .minus => ['-']
  | .bang => ['!']
  | .asterisk => ['*']
  | .slash => ['/']
  | .less => ['<']
  | .greater => ['>']
  | .lessEqual => ['<', '=']
  | .greaterEqual => ['>', '=']
  | .equal => ['=', '=']
  | .notEqual => ['!', '=']
  | .comma => [',']
  | .semicolon => [';']
  | .colon => [':']
  | .leftParen => ['(']
  | .rightParen => [')']
  | .leftBrace => ['\x7b']
  | .rightBrace => ['\x7d']
  | .leftBracket => ['[']
  | .rightBracket => [']']

/-- The text of a symbol. -/
def spelling (symbol : Symbol) : String :=
  String.ofList symbol.glyphs

/-- Every symbol, those of two characters before those of one. -/
def longestFirst : List Symbol :=
  [.lessEqual, .greaterEqual, .equal, .notEqual,
   .assign, .plus, .minus, .bang, .asterisk, .slash, .less, .greater,
   .comma, .semicolon, .colon, .leftParen, .rightParen,
   .leftBrace, .rightBrace, .leftBracket, .rightBracket]

/-- The longest symbol that an input starts with. -/
def longest? (input : List Char) : Option Symbol :=
  longestFirst.find? fun symbol => symbol.glyphs.isPrefixOf input

end Symbol

/-- The reserved words. -/
inductive Keyword where
  | function
  | binding
  | number
  | truth
  | falsehood
  | conditional
  | alternative
  | result
  | print
deriving DecidableEq

namespace Keyword

/-- The canonical spelling of a keyword. -/
def spelling : Keyword → String
  | .function => "फन"
  | .binding => "लेट"
  | .number => "संख्या"
  | .truth => "सत्य"
  | .falsehood => "मिथ्या"
  | .conditional => "यदि"
  | .alternative => "अन्यथा"
  | .result => "प्रतिफल"
  | .print => "लेख्नुहोस्"

/-- Every keyword. -/
def all : List Keyword :=
  [.function, .binding, .number, .truth, .falsehood, .conditional,
   .alternative, .result, .print]

/-- The spellings of the keywords, the canonical ones first. -/
def spellings : List (String × Keyword) :=
  all.map (fun keyword => (keyword.spelling, keyword)) ++
    [("असत्य", .falsehood)]

/-- The keyword that a whole word spells. -/
def ofWord? (word : String) : Option Keyword :=
  spellings.lookup word

end Keyword

/-- The kind of a token. -/
inductive Kind where
  | endOfInput
  | illegal
  | identifier
  | integer
  | string
  | symbol (symbol : Symbol)
  | keyword (keyword : Keyword)
deriving DecidableEq

namespace Kind

/-- The kind of a word: a keyword if the whole word spells one. -/
def ofWord (word : String) : Kind :=
  match Keyword.ofWord? word with
  | some reserved => .keyword reserved
  | none => .identifier

/-- The canonical spelling of a keyword kind. -/
def keywordSpelling? : Kind → Option String
  | .keyword reserved => some reserved.spelling
  | _ => none

/-- How a kind is named in diagnostics and listings. -/
def display : Kind → String
  | .endOfInput => "EOF"
  | .illegal => "ILLEGAL"
  | .identifier => "IDENT"
  | .integer => "INT"
  | .string => "STRING"
  | .symbol mark => mark.spelling
  | .keyword reserved => reserved.spelling

end Kind

end Bhasha
