import Ovsdb.Error
import Ovsdb.Framing.Scanner
import Ovsdb.Json.Reader

/-! JSON values out of a stream of bytes, and into one. -/

namespace Ovsdb.Framing

/-- The bytes received and not yet handed out: those already scanned, newest first, which belong to the current
    text, and those that wait behind them. -/
structure Reader where
  scanned : List UInt8
  waiting : List UInt8
  scanner : Scanner

/-- What the bytes at hand amount to. -/
inductive Frame where
  | value (j : Json)
  | fault (e : Error)
  | incomplete

namespace Reader

def empty : Reader := ⟨[], [], .initial⟩

/-- What comes of a text that is complete. -/
def ofText (text : List UInt8) : Frame :=
  match Json.read text with
  | some j => .value j
  | none => .fault (.serialization .notJson)

/-- Scans `waiting` up to the end of the current text. A byte that may not stand between texts is an error, but
    stays there as the beginning of the next text. -/
def scan (scanned : List UInt8) (scanner : Scanner) : List UInt8 → Frame × Reader
  | [] => (.incomplete, ⟨scanned, [], scanner⟩)
  | b :: rest =>
    match scanner.step b with
    | .inside s => scan (b :: scanned) s rest
    | .complete => (ofText (b :: scanned).reverse, ⟨[], rest, .initial⟩)
    | .stray => (.fault (.protocol (.strayByte b)), ⟨b :: scanned, rest, scanner⟩)

/-- Takes the next frame from the bytes that are there. -/
def poll (r : Reader) : Frame × Reader :=
  scan r.scanned r.scanner r.waiting

def extend (r : Reader) (bytes : List UInt8) : Reader :=
  { r with waiting := r.waiting ++ bytes }

/-- What the end of the stream means once all bytes are scanned: nothing may be left of an unfinished text. -/
def atEnd (r : Reader) : Except Error Unit × Reader :=
  if r.scanner.isIdle then (.ok (), empty) else (.error (.protocol .cutOff), r)

/-- The next value of the stream whose reads are given, `none` at its end. An empty read is the end of the
    stream. -/
def nextFrame (r : Reader) (reads : List (List UInt8)) :
    Except Error (Option Json) × Reader × List (List UInt8) :=
  match r.poll, reads with
  | (.value j, r'), _ => (.ok (some j), r', reads)
  | (.fault e, r'), _ => (.error e, r', reads)
  | (.incomplete, r'), [] => ((r'.atEnd.1).map fun _ => none, r'.atEnd.2, [])
  | (.incomplete, r'), [] :: rest => ((r'.atEnd.1).map fun _ => none, r'.atEnd.2, rest)
  | (.incomplete, r'), (b :: chunk) :: rest => nextFrame (r'.extend (b :: chunk)) rest

end Reader

/-- A read takes this many bytes at most. -/
def readLimit : Nat := 8192

/-- The reads that a chunk of the stream is taken in. -/
def readsOf (chunk : List UInt8) : List (List UInt8) :=
  if readLimit < chunk.length then chunk.take readLimit :: readsOf (chunk.drop readLimit) else [chunk]
termination_by chunk.length
decreasing_by simp [readLimit] at *; omega

/-- The bytes of a value as it is written: its compact text on a line of its own. -/
def frameBytes (j : Json) : List UInt8 :=
  j.bytes ++ ['\n'.toNat.toUInt8]

end Ovsdb.Framing
