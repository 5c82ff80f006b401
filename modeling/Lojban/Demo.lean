import Lojban.Session

/-!
# Demonstration

A few texts, read with the shared lexicon. An accepted text is shown as an outline; a refused one
with the reason and, where the reason has a place in the text, a row of carets below it.
-/

namespace Lojban.Demo

/-- The texts of the demonstration. -/
def texts : List String := [
  "mi klama le zarci",
  "mi prami do .i do prami mi",
  "mi klama le qarci",
  "mi klama le zarci!",
  ""]

/-- The carets below the bytes of a span. -/
def carets (span : Int × Int) : String :=
  "  " ++ "".pushn ' ' span.1.toNat ++ "".pushn '^' (span.2 - span.1).toNat

/-- Reads a text and prints what came of it. -/
def present (text : String) : Run Unit := do
  Run.print ("".pushn '=' 60)
  Run.print ("Input: '" ++ text ++ "'")
  tryCatch (do Run.print (← Run.readText text).outline) fun
    | .failure f => do
      Run.print ("  " ++ f.kind ++ " error: " ++ f.describe)
      if let some span := f.span then
        Run.print ("  " ++ text)
        Run.print (carets span)
    | t => throw t

/-- The whole demonstration. -/
def main : Run Unit :=
  texts.forM present

end Lojban.Demo
