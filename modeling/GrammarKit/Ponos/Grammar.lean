import GrammarKit.Artifact

/-!
# The Ponos grammar

Ponos is a small imperative language whose keywords are Russian words.  Its operators have the
precedences usual for C, with words for "and" and "or".
-/

namespace GrammarKit.Ponos

/-- The symbols of the grammar in the order of its table. -/
inductive Kind where
  | endOfInput
  | keywordVar
  | equals
  | semicolon
  | keywordReturn
  | keywordFunction
  | keywordEnd
  | leftParen
  | rightParen
  | comma
  | keywordIf
  | keywordElse
  | keywordWhile
  | keywordClass
  | keywordExtends
  | keywordImplements
  | minus
  | bang
  | asterisk
  | slash
  | plus
  | less
  | lessEqual
  | greater
  | greaterEqual
  | keywordAnd
  | keywordOr
  | dot
  | keywordTrue
  | keywordFalse
  | comment
  | identifier
  | number
  | string
  | sourceFile
  | statement
  | varStatement
  | returnStatement
  | functionDeclaration
  | paramsList
  | assignmentStatement
  | ifStatement
  | whileStatement
  | classDeclaration
  | membersList
  | expressionStatement
  | expression
  | unaryExpression
  | binaryExpression
  | callExpression
  | fieldExpression
  | arguments
  | closureExpression
  | literalValue
  | boolean
deriving DecidableEq, Repr

namespace Kind

def index (k : Kind) : Symbol :=
  k.ctorIdx

def rule (k : Kind) : Rule :=
  .symbol k.index

end Kind

open Kind

def block : Rule :=
  .zeroOrMore statement.rule

/-- At least one `item`, with commas between them. -/
def commaSeparated (item : Rule) : Rule :=
  .seq [item, .zeroOrMore (.seq [comma.rule, item])]

/-- An operator between operands, which nests to the left. -/
def binary (operator : Kind) (precedence : Nat) (valid : precedence < 256 := by decide) :
    InfixOperator :=
  { operator := operator.index
    precedence := ⟨precedence, valid⟩
    associativity := .left
    node := binaryExpression.index }

def unary (operator : Kind) : PrefixOperator :=
  { operator := operator.index, precedence := ⟨6, by decide⟩, node := unaryExpression.index }

def expressions : ExpressionTable :=
  { operand := .choice [literalValue.rule, identifier.rule, closureExpression.rule]
    prefixOps := [unary minus, unary bang]
    infixOps := [
      binary asterisk 5, binary slash 5,
      binary plus 4, binary minus 4,
      binary less 3, binary lessEqual 3, binary greater 3, binary greaterEqual 3,
      binary keywordAnd 2,
      binary keywordOr 1]
    postfixOps := [
      { rule := arguments.rule, precedence := ⟨8, by decide⟩, node := callExpression.index },
      { rule := .seq [dot.rule, identifier.rule]
        precedence := ⟨7, by decide⟩
        node := fieldExpression.index }] }

def info : Kind → SymbolInfo
  | endOfInput => .endOfInput
  | keywordVar => .literal "пер"
  | equals => .literal "="
  | semicolon => .literal ";"
  | keywordReturn => .literal "возврат"
  | keywordFunction => .literal "функ"
  | keywordEnd => .literal "конец"
  | leftParen => .literal "("
  | rightParen => .literal ")"
  | comma => .literal ","
  | keywordIf => .literal "если"
  | keywordElse => .literal "иначе"
  | keywordWhile => .literal "пока"
  | keywordClass => .literal "класс"
  | keywordExtends => .literal "наследует"
  | keywordImplements => .literal "реализует"
  | minus => .literal "-"
  | bang => .literal "!"
  | asterisk => .literal "*"
  | slash => .literal "/"
  | plus => .literal "+"
  | less => .literal "<"
  | lessEqual => .literal "<="
  | greater => .literal ">"
  | greaterEqual => .literal ">="
  | keywordAnd => .literal "и"
  | keywordOr => .literal "или"
  | dot => .literal "."
  | keywordTrue => .literal "истина"
  | keywordFalse => .literal "ложь"
  | comment => .pattern "comment" "//.*"
  | identifier => .pattern "identifier" "[\\p\x7bXID_Start\x7d_][\\p\x7bXID_Continue\x7d_]*"
  | number => .pattern "number" "[0-9]+(\\.[0-9]+)?"
  | string => .pattern "string" "\"([^\"\\\\\\n]|\\\\.)*\""
  | sourceFile => .rule "source_file" block
  | statement => .rule "_statement" <| .choice [
      varStatement.rule, returnStatement.rule, functionDeclaration.rule,
      assignmentStatement.rule, ifStatement.rule, whileStatement.rule,
      expressionStatement.rule, classDeclaration.rule]
  | varStatement => .rule "var_statement" <| .seq [
      keywordVar.rule, identifier.rule, equals.rule, expression.rule, semicolon.rule]
  | returnStatement => .rule "return_statement" <| .seq [
      keywordReturn.rule, .optional expression.rule, semicolon.rule]
  | functionDeclaration => .rule "function_declaration_statement" <| .seq [
      keywordFunction.rule, identifier.rule, paramsList.rule, block, keywordEnd.rule]
  | paramsList => .rule "params_list" <| .seq [
      leftParen.rule, .optional (commaSeparated identifier.rule), rightParen.rule]
  | assignmentStatement => .rule "assigment_statement" <| .seq [
      identifier.rule, equals.rule, expression.rule, semicolon.rule]
  | ifStatement => .rule "if_statement" <| .seq [
      keywordIf.rule, expression.rule, block,
      .optional (.seq [keywordElse.rule, block]), keywordEnd.rule]
  | whileStatement => .rule "while_statement" <| .seq [
      keywordWhile.rule, expression.rule, block, keywordEnd.rule]
  | classDeclaration => .rule "class_declaration_statement" <| .seq [
      keywordClass.rule, identifier.rule,
      .optional (.seq [keywordExtends.rule, identifier.rule]),
      .optional (.seq [keywordImplements.rule, identifier.rule]),
      .optional membersList.rule, keywordEnd.rule]
  | membersList => .rule "members_list" <| .oneOrMore <| .choice [
      functionDeclaration.rule, identifier.rule]
  | expressionStatement => .rule "expression_statement" <| .seq [
      expression.rule, semicolon.rule]
  | expression => .expression "_expression" expressions
  | unaryExpression => .derived "unary_expression"
  | binaryExpression => .derived "binary_expression"
  | callExpression => .derived "call_expression"
  | fieldExpression => .derived "field_expression"
  | arguments => .rule "arguments" <| .seq [
      leftParen.rule, .optional (commaSeparated expression.rule), .optional comma.rule,
      rightParen.rule]
  | closureExpression => .rule "closure_expression" <| .seq [
      keywordFunction.rule, paramsList.rule, block, keywordEnd.rule]
  | literalValue => .rule "_literal" <| .choice [number.rule, boolean.rule, string.rule]
  | boolean => .rule "bool" <| .choice [keywordTrue.rule, keywordFalse.rule]

def kinds : List Kind :=
  [endOfInput, keywordVar, equals, semicolon, keywordReturn, keywordFunction, keywordEnd,
    leftParen, rightParen, comma, keywordIf, keywordElse, keywordWhile, keywordClass,
    keywordExtends, keywordImplements, minus, bang, asterisk, slash, plus, less, lessEqual, greater,
    greaterEqual, keywordAnd, keywordOr, dot, keywordTrue, keywordFalse, comment, identifier,
    number, string, sourceFile, statement, varStatement, returnStatement, functionDeclaration,
    paramsList, assignmentStatement, ifStatement, whileStatement, classDeclaration, membersList,
    expressionStatement, expression, unaryExpression, binaryExpression, callExpression,
    fieldExpression, arguments, closureExpression, literalValue, boolean]

def grammarName : String := "Ponos"

def artifact : Artifact :=
  { version := 1
    name := grammarName
    symbols := (kinds.map info).toArray
    root := sourceFile.index
    extras := [comment.index]
    recovery := [semicolon.index, keywordEnd.index] }

end GrammarKit.Ponos
