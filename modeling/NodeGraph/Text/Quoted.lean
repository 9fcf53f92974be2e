import NodeGraph.Text.Hex
import NodeGraph.Text.Numbered

namespace NodeGraph.Quoted

/-! Text between double quotes, as diagnostics show it. -/

/-- One character inside quotes: the quote and the backslash take a backslash,
four controls have letters, and what cannot be shown is written by number. -/
def escape (character : Char) : List Char :=
  match character with
  | '"' => ['\\', '"']
  | '\\' => ['\\', '\\']
  | '\n' => ['\\', 'n']
  | '\r' => ['\\', 'r']
  | '\t' => ['\\', 't']
  | '\x00' => ['\\', '0']
  | _ =>
      if Numbered.isNumbered character then
        ['\\', 'u', '\x7b'] ++ (Hex.shortest character.toNat).toList ++ ['\x7d']
      else
        [character]

def quote (text : String) : String :=
  String.ofList (['"'] ++ text.toList.flatMap escape ++ ['"'])

example : quote "a\"b\\" = "\"a\\\"b\\\\\"" := by decide +kernel

example : quote "e\u0301\t" = "\"e\\u\x7b301\x7d\\t\"" := by decide +kernel

end NodeGraph.Quoted
