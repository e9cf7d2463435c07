import AnnotationCheck.Php.Rule

/-!
The grammar of PHP's statements and expressions.

The rules accept a little more than the language: operators have no precedence, modifiers may be
combined freely, and a statement may lack its semicolon. Bodies in braces go on behind a mistake
(`Rule.recover`), so that a declaration stands even when one of its members does not. `grammar` gives
the rule of every part.
-/

namespace AnnotationCheck.Php

/-- The parts of the grammar. -/
inductive Part where
  | statement
  | block
  | expression
  | operand
  | suffixes
  | indirect
  | arguments
  | arrayItem
  | parameters
  | typeHint
  | attributes
  | member
  | classBody
  | closure
  | arrow
  | quoted
  deriving DecidableEq, Repr

namespace Grammar

open Rule

/-- A rule of this grammar. -/
abbrev R := Rule Part

/-! ### Tests -/

/-- The mark or operator of the given spelling. -/
@[inline] def mark (spelling : String) : Token → Bool := Token.isSymbol spelling

/-- The given word. -/
@[inline] def word (spelling : String) : Token → Bool := Token.isWord spelling

/-- The words that name nothing but what they mark. -/
def reservedWords : List Text :=
  ["static", "abstract", "final", "for", "private", "protected", "public", "include", "include_once",
    "eval", "require", "require_once", "or", "xor", "and", "instanceof", "new", "clone", "exit", "die",
    "if", "elseif", "else", "endif", "echo", "do", "while", "endwhile", "endfor", "foreach",
    "endforeach", "declare", "enddeclare", "as", "try", "catch", "finally", "throw", "use", "insteadof",
    "global", "var", "unset", "isset", "empty", "continue", "goto", "function", "const", "return",
    "print", "yield", "switch", "endswitch", "case", "default", "break", "array", "callable", "extends",
    "implements", "namespace", "trait", "interface", "class", "__class__", "__trait__", "__function__",
    "__method__", "__line__", "__file__", "__dir__", "__namespace__", "__property__", "__halt_compiler",
    "fn"].map String.toList

/-- A word that may name what a script declares. -/
def isOwnName (token : Token) : Bool := token.kind == .word && !token.isOneOf reservedWords

/-- A name, of one segment or several. -/
def isName (token : Token) : Bool := token.kind == .qualified || isOwnName token

/-- The reserved words that stand for a value or may be called. -/
def valueWords : List Text :=
  ["static", "exit", "die", "isset", "empty", "eval", "array", "unset", "__class__", "__trait__",
    "__function__", "__method__", "__line__", "__file__", "__dir__", "__namespace__",
    "__property__"].map String.toList

/-- The reserved words that stand for a type. -/
def typeWords : List Text := ["array", "callable", "static"].map String.toList

/-- The name of a type. -/
def isTypeName (token : Token) : Bool := isName token || token.isOneOf typeWords

/-- Any word. -/
def isAnyWord (token : Token) : Bool := token.kind == .word

/-- A variable. -/
def isVariable (token : Token) : Bool := token.kind == .variableName

/-- The words that modify a declaration. -/
def modifierWords : List Text :=
  ["public", "protected", "private", "static", "abstract", "final", "readonly", "var"].map String.toList

/-- A word that modifies the declaration of a class. -/
def isClassModifier (token : Token) : Bool :=
  token.isOneOf (["abstract", "final", "readonly"].map String.toList)

/-- The operators between two operands. -/
def infixMarks : List Text :=
  ["+", "-", "*", "/", "%", ".", "**", "==", "===", "!=", "!==", "<>", "<", ">", "<=", ">=", "<=>", "&&",
    "||", "??", "&", "|", "^", "<<", ">>", "=", "+=", "-=", "*=", "/=", ".=", "%=", "**=", "??=", "&=",
    "|=", "^=", "<<=", ">>=", "|>"].map String.toList

/-- The words between two operands. -/
def infixWords : List Text := ["and", "or", "xor", "instanceof"].map String.toList

/-- An operator between two operands. -/
def isInfix (token : Token) : Bool :=
  (token.kind == .symbol && infixMarks.contains token.text) || token.isOneOf infixWords

/-- The operators before an operand. -/
def leadMarks : List Text := ["!", "~", "@", "+", "-", "++", "--", "&"].map String.toList

/-- The words before an operand. -/
def leadWords : List Text :=
  ["new", "print", "throw", "include", "include_once", "require", "require_once"].map String.toList

/-- An operator before an operand. -/
def isLead (token : Token) : Bool :=
  token.kind == .conversion || (token.kind == .symbol && leadMarks.contains token.text)
    || token.isOneOf leadWords

/-- A mark of the given list. -/
def isMarkOf (marks : List Text) (token : Token) : Bool := token.kind == .symbol && marks.contains token.text

/-- `?>`. -/
def isCloseTag (token : Token) : Bool := token.kind == .closeTag

/-- What ends a statement. -/
def endsStatement (token : Token) : Bool := mark ";" token || isCloseTag token

/-- Whether an `&` ahead joins two types, rather than marking a reference. -/
def joinsTypes (tokens : List Token) : Bool :=
  next (mark "&") tokens
    && !second (fun token => isVariable token || isMarkOf ["...".toList, "&".toList] token) tokens

/-- Whether the tokens ahead end the operand of a `yield`. -/
def endsYield (tokens : List Token) : Bool :=
  tokens.isEmpty || next (fun token => endsStatement token
    || isMarkOf [",".toList, ")".toList, "]".toList, "\x7d".toList] token) tokens

/-! ### Small rules -/

/-- What ends a statement, if it is there. -/
def terminator : R := optionalToken endsStatement

/-- Items of a kind with commas between them, the last of which may have a comma behind it. -/
def listed (close : Token → Bool) (item : R) : R :=
  choose (next close) nothing
    (all [item,
      many (fun tokens => next (mark ",") tokens && !second close tokens) (all [token (mark ","), item]),
      optionalToken (mark ",")])

/-- Items between two marks. -/
def enclosed (opening closing : String) (item : R) : R :=
  all [token (mark opening), listed (mark closing) item, token (mark closing)]

/-- One or more items with commas between them. -/
def commas (item : R) : R := all [item, many (next (mark ",")) (all [token (mark ","), item])]

/-- An expression in parentheses. -/
def condition : R := all [token (mark "("), part .expression, token (mark ")")]

/-- Modifiers, each with the `(set)` that may follow it. -/
def modifiers : R :=
  many (next (·.isOneOf modifierWords))
    (all [token (·.isOneOf modifierWords),
      choose (fun tokens => next (mark "(") tokens && second (word "set") tokens)
        (all [token (mark "("), token (word "set"), token (mark ")")]) nothing])

/-- The type behind a `:`, if there is one. -/
def resultType : R := optional (mark ":") (all [token (mark ":"), part .typeHint])

/-- The value behind a `=`, if there is one. -/
def initial : R := optional (mark "=") (all [token (mark "="), part .expression])

/-- The supertypes behind a word, if it is there. -/
def supertypes (spelling : String) : R :=
  optional (word spelling) (all [token (word spelling), commas (token isName)])

/-- Statements up to one of the given words. -/
def statementsUntil (words : List String) : R :=
  recover (·.isOneOf (words.map String.toList)) (part .statement)

/-- The body of a loop: a statement, or statements up to a closing word. -/
def loopBody (closing : String) : R :=
  choose (next (mark ":"))
    (all [token (mark ":"), statementsUntil [closing], token (word closing), terminator])
    (part .statement)

/-! ### Declarations -/

/-- The declaration of a class behind its attributes. -/
def classDeclaration : R :=
  all [many (next isClassModifier) (token isClassModifier), token (word "class"), token isOwnName,
    supertypes "extends", supertypes "implements", part .classBody]

/-- The declaration of an interface behind its attributes. -/
def interfaceDeclaration : R :=
  all [token (word "interface"), token isOwnName, supertypes "extends", part .classBody]

/-- The declaration of a trait behind its attributes. -/
def traitDeclaration : R := all [token (word "trait"), token isOwnName, part .classBody]

/-- The declaration of an enumeration behind its attributes. -/
def enumDeclaration : R :=
  all [token (word "enum"), token isOwnName, resultType, supertypes "implements", part .classBody]

/-- The declaration of a function behind its attributes. -/
def functionDeclaration : R :=
  all [token (word "function"), optionalToken (mark "&"), token isOwnName, part .parameters, resultType,
    part .block]

/-- Whether a class is declared ahead. -/
def classAhead : Ahead := next fun token => isClassModifier token || word "class" token

/-- Whether an enumeration is declared ahead. -/
def enumAhead (tokens : List Token) : Bool :=
  next (word "enum") tokens && second isAnyWord tokens

/-- Whether a function is declared ahead, and not used as a value. -/
def functionAhead (tokens : List Token) : Bool :=
  next (word "function") tokens &&
    (second isAnyWord tokens
      || (second (mark "&") tokens && tokens.tail.tail.head?.any isAnyWord))

/-- An item of an import, with the name it is used under. -/
def importItem : R := all [token isName, optional (word "as") (all [token (word "as"), token isOwnName])]

/-- A word that marks an import as one of functions or constants. -/
def isImportKind (token : Token) : Bool := word "function" token || word "const" token

/-- The declaration of imports. -/
def importDeclaration : R :=
  all [token (word "use"),
    choose (next isImportKind)
      (choose (fun tokens => tokens.tail.tail.head?.any (mark "\\"))
        (all [token isImportKind, token isName, token (mark "\\"), enclosed "\x7b" "\x7d" importItem])
        (all [token isImportKind, commas importItem]))
      (choose (second (mark "\\"))
        (all [token isName, token (mark "\\"),
          enclosed "\x7b" "\x7d" (all [optionalToken isImportKind, importItem])])
        (commas importItem)),
    terminator]

/-! ### Parts of expressions -/

/-- A function as a value. -/
def closureRule : R :=
  all [token (word "function"), optionalToken (mark "&"), part .parameters,
    optional (word "use") (all [token (word "use"),
      enclosed "(" ")" (all [optionalToken (mark "&"), token isVariable])]),
    resultType, part .block]

/-- A function that gives the value of one expression. -/
def arrowRule : R :=
  all [token (word "fn"), optionalToken (mark "&"), part .parameters, resultType, token (mark "=>"),
    part .expression]

/-- A string with parts that are code. -/
def quotedRule : R :=
  all [token (·.kind == .openQuote),
    many (fun tokens => !tokens.isEmpty && !next (·.kind == .closeQuote) tokens)
      (choose (next (·.kind == .openQuote)) (part .quoted) (token fun _ => true)),
    token (·.kind == .closeQuote)]

/-- A variable whose name is computed. -/
def indirectRule : R :=
  all [token (mark "$"),
    cases [(next (mark "\x7b"), all [token (mark "\x7b"), part .expression, token (mark "\x7d")]),
      (next (mark "$"), part .indirect)]
      (token isVariable)]

/-- The name of a member behind an arrow or a double colon. -/
def selector : R :=
  cases [(next (mark "\x7b"), all [token (mark "\x7b"), part .expression, token (mark "\x7d")]),
    (next (mark "$"), part .indirect), (next isVariable, token isVariable)]
    (token isAnyWord)

/-- What may follow an operand: arguments, an index, a member, an increment. -/
def postfixRule : R :=
  cases [(next (mark "("), part .arguments),
    (next (mark "["), all [token (mark "["), choose (next (mark "]")) nothing (part .expression),
      token (mark "]")]),
    (next (isMarkOf ["++".toList, "--".toList]), token fun _ => true)]
    (all [token fun _ => true, selector])

/-- Whether something follows an operand that belongs to it. -/
def postfixAhead : Ahead :=
  next (isMarkOf (["(", "[", "->", "?->", "::", "++", "--"].map String.toList))

/-- An argument of a call. -/
def argument : R :=
  cases [(next (mark "..."), all [token (mark "..."), choose (next (mark ")")) nothing (part .expression)]),
    (fun tokens => next isAnyWord tokens && second (mark ":") tokens,
      all [token isAnyWord, token (mark ":"), part .expression]),
    (fun tokens => next (mark "?") tokens && second (isMarkOf [",".toList, ")".toList]) tokens,
      token (mark "?"))]
    (part .expression)

/-- An item of a list of values; an item may be missing. -/
def arrayItemRule : R :=
  cases [(next (mark ","), nothing), (next (mark "..."), all [token (mark "..."), part .expression])]
    (all [part .expression, optional (mark "=>") (all [token (mark "=>"), part .expression])])

/-- An arm of a `match`. -/
def matchArm : R :=
  all [choose (next (word "default"))
      (all [token (word "default"), optionalToken (mark ",")])
      (all [part .expression,
        many (fun tokens => next (mark ",") tokens && !second (mark "=>") tokens)
          (all [token (mark ","), part .expression]),
        optionalToken (mark ",")]),
    token (mark "=>"), part .expression]

/-- The class behind a `new` that has no name. -/
def anonymousClass : R :=
  all [part .attributes, many (next isClassModifier) (token isClassModifier), token (word "class"),
    optional (mark "(") (part .arguments), supertypes "extends", supertypes "implements",
    part .classBody]

/-- Whether a class without a name is ahead. -/
def anonymousAhead (tokens : List Token) : Bool :=
  next (fun token => mark "#[" token || word "class" token) tokens
    || (next isClassModifier tokens
      && second (fun token => isClassModifier token || word "class" token) tokens)

/-- An operand with what follows it. -/
def value (rule : R) : R := all [rule, many postfixAhead (part .suffixes)]

/-- A function as a value, with `static` before it or without. -/
def functionValue : R :=
  all [optionalToken (word "static"), choose (next (word "fn")) (part .arrow) (part .closure)]

/-- Whether a function as a value is ahead. -/
def functionValueAhead (tokens : List Token) : Bool :=
  next (fun token => word "function" token || word "fn" token) tokens
    || (next (word "static") tokens
      && second (fun token => word "function" token || word "fn" token) tokens)

/-- An operand. -/
def operandRule : R :=
  cases [
    (fun tokens => next (word "new") tokens && anonymousAhead tokens.tail,
      all [token (word "new"), value anonymousClass]),
    (next isLead, all [token isLead, part .operand]),
    (fun tokens => next (word "clone") tokens && !second (mark "(") tokens,
      all [token (word "clone"), part .operand]),
    (next (word "clone"), value (token (word "clone"))),
    (next (word "yield"),
      all [token (word "yield"),
        cases [(endsYield, nothing),
          (next (word "from"), all [token (word "from"), part .expression])]
          (all [part .expression, optional (mark "=>") (all [token (mark "=>"), part .expression])])]),
    (functionValueAhead, value functionValue),
    (next (mark "#["), all [part .attributes, value functionValue]),
    (next isVariable, value (token isVariable)),
    (next (mark "$"), value (part .indirect)),
    (next fun token => token.kind == .number || token.kind == .literal, value (token fun _ => true)),
    (next (·.kind == .openQuote), value (part .quoted)),
    (next (mark "["), value (enclosed "[" "]" (part .arrayItem))),
    (next (mark "("), value condition),
    (fun tokens => next (·.isOneOf ["array".toList, "list".toList]) tokens && second (mark "(") tokens,
      value (all [token isAnyWord, enclosed "(" ")" (part .arrayItem)])),
    (fun tokens => next (word "match") tokens && second (mark "(") tokens,
      value (all [token (word "match"), condition, enclosed "\x7b" "\x7d" matchArm])),
    (next fun token => isName token || token.isOneOf valueWords, value (token fun _ => true))]
    fail

/-- An expression: operands with operators between them. -/
def expressionRule : R :=
  all [part .operand,
    many (next fun token => isInfix token || mark "?" token)
      (choose (next (mark "?"))
        (all [token (mark "?"), choose (next (mark ":")) nothing (part .expression), token (mark ":"),
          part .operand])
        (all [token isInfix, part .operand]))]

/-! ### Types and parameters -/

/-- A type without operators between its names. -/
def typeUnit : R :=
  cases [(next (mark "?"), all [token (mark "?"), part .typeHint]),
    (next (mark "("), all [token (mark "("), part .typeHint, token (mark ")")])]
    (token isTypeName)

/-- A type. -/
def typeHintRule : R :=
  all [typeUnit,
    many (fun tokens => next (mark "|") tokens || joinsTypes tokens) (all [token fun _ => true, typeUnit])]

/-- The functions that read and write a property. -/
def hooks : R :=
  all [token (mark "\x7b"),
    many (fun tokens => !tokens.isEmpty && !next (mark "\x7d") tokens)
      (all [part .attributes, modifiers, optionalToken (mark "&"), token isAnyWord,
        optional (mark "(") (part .parameters),
        cases [(next (mark "=>"), all [token (mark "=>"), part .expression, terminator]),
          (next (mark "\x7b"), part .block)]
          (token (mark ";"))]),
    token (mark "\x7d")]

/-- A parameter of a function. -/
def parameter : R :=
  all [part .attributes, modifiers,
    choose (next fun token => isVariable token || isMarkOf ["&".toList, "...".toList] token) nothing
      (part .typeHint),
    optionalToken (mark "&"), optionalToken (mark "..."), token isVariable, initial,
    optional (mark "\x7b") hooks]

/-! ### Members -/

/-- The use of traits in a class. -/
def traitUse : R :=
  all [token (word "use"), commas (token isName),
    choose (next (mark "\x7b"))
      (all [token (mark "\x7b"),
        many (fun tokens => !tokens.isEmpty && !next (mark "\x7d") tokens)
          (all [token fun token => isAnyWord token || isName token,
            optional (mark "::") (all [token (mark "::"), token isAnyWord]),
            choose (next (word "insteadof"))
              (all [token (word "insteadof"), commas (token isName)])
              (all [token (word "as"), many (next isAnyWord) (token isAnyWord)]),
            terminator]),
        token (mark "\x7d")])
      terminator]

/-- A constant and its value. -/
def constantItem : R := all [token isAnyWord, token (mark "="), part .expression]

/-- A member of a class behind its attributes and modifiers. -/
def memberBody : R :=
  cases [
    (next (word "const"),
      all [token (word "const"), choose (second (mark "=")) nothing (part .typeHint), commas constantItem,
        terminator]),
    (next (word "function"),
      all [token (word "function"), optionalToken (mark "&"), token isAnyWord, part .parameters,
        resultType, choose (next (mark "\x7b")) (part .block) terminator])]
    (all [choose (next isVariable) nothing (part .typeHint), token isVariable, initial,
      choose (next (mark "\x7b")) hooks
        (all [many (next (mark ",")) (all [token (mark ","), token isVariable, initial]), terminator])])

/-- A member of a class. -/
def memberRule : R :=
  choose (next (word "use")) traitUse
    (all [part .attributes,
      choose (next (word "case"))
        (all [token (word "case"), token isAnyWord, initial, terminator])
        (all [modifiers, memberBody])])

/-! ### Statements -/

/-- A conditional statement. -/
def ifStatement : R :=
  all [token (word "if"), condition,
    choose (next (mark ":"))
      (all [token (mark ":"), statementsUntil ["elseif", "else", "endif"],
        many (next (word "elseif"))
          (all [token (word "elseif"), condition, token (mark ":"),
            statementsUntil ["elseif", "else", "endif"]]),
        optional (word "else")
          (all [token (word "else"), token (mark ":"), statementsUntil ["endif"]]),
        token (word "endif"), terminator])
      (all [part .statement,
        many (next (word "elseif")) (all [token (word "elseif"), condition, part .statement]),
        optional (word "else") (all [token (word "else"), part .statement])])]

/-- The cases of a `switch` up to a closing token. -/
def switchCases (close : Token → Bool) : R :=
  many (fun tokens => !tokens.isEmpty && !next close tokens)
    (all [choose (next (word "default")) (token (word "default"))
        (all [token (word "case"), part .expression]),
      token (isMarkOf [":".toList, ";".toList]),
      recover (fun token => close token || word "case" token || word "default" token)
        (part .statement)])

/-- A `switch` statement. -/
def switchStatement : R :=
  all [token (word "switch"), condition,
    choose (next (mark ":"))
      (all [token (mark ":"), switchCases (word "endswitch"), token (word "endswitch"), terminator])
      (all [token (mark "\x7b"), optionalToken (mark ";"), switchCases (mark "\x7d"),
        token (mark "\x7d")])]

/-- The expressions of one place in the head of a `for`. -/
def forPlace (close : Token → Bool) : R := listed close (part .expression)

/-- A `for` statement. -/
def forStatement : R :=
  all [token (word "for"), token (mark "("), forPlace (mark ";"), token (mark ";"), forPlace (mark ";"),
    token (mark ";"), forPlace (mark ")"), token (mark ")"), loopBody "endfor"]

/-- A `foreach` statement. -/
def foreachStatement : R :=
  all [token (word "foreach"), token (mark "("), part .expression, token (word "as"), part .expression,
    optional (mark "=>") (all [token (mark "=>"), part .expression]), token (mark ")"),
    loopBody "endforeach"]

/-- A `try` statement. -/
def tryStatement : R :=
  all [token (word "try"), part .block,
    many (next (word "catch"))
      (all [token (word "catch"), token (mark "("), part .typeHint, optionalToken isVariable,
        token (mark ")"), part .block]),
    optional (word "finally") (all [token (word "finally"), part .block])]

/-- A statement that begins with a word and may have an expression behind it. -/
def jump (spelling : String) : R :=
  all [token (word spelling), choose (next endsStatement) nothing (part .expression), terminator]

/-- A statement that is an expression. -/
def expressionStatement : R := all [part .expression, terminator]

/-- A declaration behind its attributes. -/
def attributed : R :=
  cases [(classAhead, classDeclaration), (next (word "interface"), interfaceDeclaration),
    (next (word "trait"), traitDeclaration), (enumAhead, enumDeclaration),
    (functionAhead, functionDeclaration), (functionValueAhead, expressionStatement)]
    fail

/-- Whether a namespace is declared ahead. -/
def namespaceAhead : Ahead := next (word "namespace")

/-- A statement. -/
def statementRule : R :=
  cases [
    (next fun token => token.kind == .outside || token.kind == .openTag || isCloseTag token
      || mark ";" token, token fun _ => true),
    (next (·.kind == .echoTag), all [token fun _ => true, commas (part .expression), terminator]),
    (next (mark "\x7b"), part .block),
    (next (mark "#["), all [part .attributes, attributed]),
    (fun tokens => next isOwnName tokens && second (mark ":") tokens,
      all [token isOwnName, token (mark ":")]),
    (classAhead, classDeclaration),
    (next (word "interface"), interfaceDeclaration),
    (next (word "trait"), traitDeclaration),
    (enumAhead, enumDeclaration),
    (functionAhead, functionDeclaration),
    (next (word "use"), importDeclaration),
    (namespaceAhead,
      all [token (word "namespace"), choose (next fun token => endsStatement token || mark "\x7b" token)
        nothing (token isName), choose (next (mark "\x7b")) (part .block) terminator]),
    (next (word "const"), all [token (word "const"), commas constantItem, terminator]),
    (next (word "declare"),
      all [token (word "declare"), enclosed "(" ")" constantItem, loopBody "enddeclare"]),
    (next (word "if"), ifStatement),
    (next (word "switch"), switchStatement),
    (next (word "while"), all [token (word "while"), condition, loopBody "endwhile"]),
    (next (word "do"),
      all [token (word "do"), part .statement, token (word "while"), condition, terminator]),
    (next (word "for"), forStatement),
    (next (word "foreach"), foreachStatement),
    (next (word "try"), tryStatement),
    (next (word "return"), jump "return"),
    (next (word "break"), jump "break"),
    (next (word "continue"), jump "continue"),
    (next (word "goto"), all [token (word "goto"), token isOwnName, terminator]),
    (next (word "echo"), all [token (word "echo"), commas (part .expression), terminator]),
    (next (word "global"), all [token (word "global"), commas (part .operand), terminator]),
    (fun tokens => next (word "static") tokens && second isVariable tokens,
      all [token (word "static"), commas (all [token isVariable, initial]), terminator]),
    (next (word "unset"),
      all [token (word "unset"), enclosed "(" ")" (part .expression), terminator]),
    (next (word "__halt_compiler"),
      all [token (word "__halt_compiler"), many (fun tokens => !tokens.isEmpty) (token fun _ => true)])]
    expressionStatement

end Grammar

open Rule Grammar in
/-- The rule of every part. -/
def grammar : Part → Rule Part
  | .statement => statementRule
  | .block => all [token (mark "\x7b"), recover (mark "\x7d") (part .statement), token (mark "\x7d")]
  | .expression => expressionRule
  | .operand => operandRule
  | .suffixes => postfixRule
  | .indirect => indirectRule
  | .arguments => enclosed "(" ")" argument
  | .arrayItem => arrayItemRule
  | .parameters => enclosed "(" ")" parameter
  | .typeHint => typeHintRule
  | .attributes =>
    many (next (mark "#["))
      (all [token (mark "#["),
        listed (mark "]") (all [token isName, optional (mark "(") (part .arguments)]), token (mark "]")])
  | .member => memberRule
  | .classBody => all [token (mark "\x7b"), recover (mark "\x7d") (part .member), token (mark "\x7d")]
  | .closure => closureRule
  | .arrow => arrowRule
  | .quoted => quotedRule

end AnnotationCheck.Php
