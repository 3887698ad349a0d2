import TermReplay.Screen.RowImage
import TermReplay.Store.Form

/-!
The forms of what is taken out of a grid: a pen, a cell, and a row as it is reported.
-/

namespace TermReplay

open Json (Schema Fields labelled memberValues)
open Stored (schema toJson ofJson?)

namespace Pen

def fields : List (String × Schema) :=
  uniformFields (schema Bool) ["bold", "underline", "lowintensity", "blink"] ++
    uniformFields (schema UInt8) ["fcolor", "bcolor"]

instance : Stored Pen where
  schema := .record (Fields.ofList fields)
  toJson p :=
    labelled fields
      [toJson p.bold, toJson p.underline, toJson p.lowIntensity, toJson p.blink,
        toJson p.foreground, toJson p.background]
  ofJson? v :=
    match memberValues v with
    | [bold, underline, lowIntensity, blink, foreground, background] => do
      return {
        bold := ← ofJson? bold
        underline := ← ofJson? underline
        lowIntensity := ← ofJson? lowIntensity
        blink := ← ofJson? blink
        foreground := ← ofJson? foreground
        background := ← ofJson? background }
    | _ => none

end Pen

namespace Cell

def fields : List (String × Schema) := [("ch", schema Char), ("pen", schema Pen)]

instance : Stored Cell where
  schema := .record (Fields.ofList fields)
  toJson c := labelled fields [toJson c.char, toJson c.pen]
  ofJson? v :=
    match memberValues v with
    | [char, pen] => do return { char := ← ofJson? char, pen := ← ofJson? pen }
    | _ => none

end Cell

namespace RowImage

def fields : List (String × Schema) :=
  uniformFields (schema String)
    ["text", "bold", "underline", "lowintensity", "blink", "fcolor", "bcolor"] ++
    [("line_attr", schema LineSize)]

instance : Stored RowImage where
  schema := .record (Fields.ofList fields)
  toJson r :=
    labelled fields
      [toJson r.text, toJson r.bold, toJson r.underline, toJson r.lowIntensity,
        toJson r.blink, toJson r.foreground, toJson r.background, toJson r.size]
  ofJson? v :=
    match memberValues v with
    | [text, bold, underline, lowIntensity, blink, foreground, background, size] => do
      return {
        text := ← ofJson? text
        bold := ← ofJson? bold
        underline := ← ofJson? underline
        lowIntensity := ← ofJson? lowIntensity
        blink := ← ofJson? blink
        foreground := ← ofJson? foreground
        background := ← ofJson? background
        size := ← ofJson? size }
    | _ => none

end RowImage

end TermReplay
