import SchemaInstaller.Text.Substitution

/-!
# The table prefix and its placeholders

Names in a site's database start with a prefix that differs from site to site. In generated
statements it is written as an expression that the running installer replaces, and definitions may
hold a token of their own for it.
-/

namespace SchemaInstaller.Sql

open Scan

/-- The expression that stands for the site's prefix in generated statements. -/
def prefixExpression : Text := "\x7b$this->prefix\x7d".toList

/-- The token for the prefix, in any case. -/
def prefixToken : Scan := fun t => do
  let t ← literal ['\x7b'] t
  let t ← keyword "wp_" t
  literal ['\x7d'] t

/-- Every token and every literal `tablePrefix` gives way to the expression. Both are looked for in
one pass, so an expression that is already there is not read again. -/
def injectPrefix (tablePrefix t : Text) : Text :=
  let rule : Rule := fun _ t =>
    let literalPrefix : Scan := if tablePrefix.isEmpty then fun _ => none else literal tablePrefix
    (orElse prefixToken literalPrefix t).map (prefixExpression, ·)
  t.substitute rule

/-- Every expression and then every token gives way to `tablePrefix`. -/
def resolvePrefix (tablePrefix t : Text) : Text :=
  (Text.replace prefixExpression tablePrefix t).substitute fun _ t =>
    (prefixToken t).map (tablePrefix, ·)

/-- A name without the prefix, if it starts with it. -/
def stripPrefix (tablePrefix name : String) : String :=
  match tablePrefix.toList.isPrefixOf? name.toList with
  | some rest => String.ofList rest
  | none => name

end SchemaInstaller.Sql
