import KnowledgeBase.Inspection

/-!
The command line: reports on the encoded change in a file.
-/

open KnowledgeBase

def main (arguments : List String) : IO UInt32 := do
  let path := arguments.head?.getD "change.wbchz"
  IO.println ("Reading: " ++ path)
  let content ← IO.FS.readBinFile path
  let (lines, error?) := Inspection.report content.toList
  lines.forM fun line => IO.println line
  match error? with
  | none => return 0
  | some error =>
      IO.eprintln ("Failed to decode: " ++ error.message)
      return 1
