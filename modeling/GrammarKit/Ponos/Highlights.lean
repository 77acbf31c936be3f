/-!
# Highlighting Ponos
-/

namespace GrammarKit.Ponos

def highlights : String := r#"
; Definitions

(function_declaration_statement (identifier) @function)
(class_declaration_statement (identifier) @type)
(class_declaration_statement "наследует" (identifier) @type)
(class_declaration_statement "реализует" (identifier) @type)
(params_list (identifier) @variable.parameter)

; Uses

(call_expression (identifier) @function.call)
(field_expression "." (identifier) @property)

; Literals

(comment) @comment
(string) @string
(number) @number
(bool) @constant.builtin

; Tokens

[
  "пер"
  "возврат"
  "функ"
  "конец"
  "если"
  "иначе"
  "пока"
  "класс"
  "наследует"
  "реализует"
] @keyword

[
  "и"
  "или"
  "!"
  "-"
  "+"
  "*"
  "/"
  "<"
  "<="
  ">"
  ">="
  "="
] @operator

[
  "("
  ")"
] @punctuation.bracket

[
  ","
  ";"
  "."
] @punctuation.delimiter

(identifier) @variable
"#

end GrammarKit.Ponos
