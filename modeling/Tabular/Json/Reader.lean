import Tabular.Json
import Tabular.Json.Token

/-! # Reading JSON

Tokens are read from left to right. The arrays and objects that are still open
are kept on a stack; a finished value goes into the innermost of them. At the
first token that does not fit, a mark goes there instead and everything open is
closed.
-/

namespace Tabular

/-- What a JSON text holds: its first value, and whether nothing follows it. -/
structure JsonText where
  value : Json
  complete : Bool

namespace Json

/-- An array or object that is still open, with its items or entries so far, the
last one first. An object also has the key whose value is being read. -/
inductive Frame
  | array (done : List Json)
  | object (done : List (Option String × Json)) (key : Option String)

/-- The array or object with one more value, which is its last. -/
def Frame.close (frame : Frame) (value : Json) : Json :=
  match frame with
  | .array done => .array (value :: done).reverse
  | .object done key => .object ((key, value) :: done).reverse

/-- What is expected next. -/
inductive Expected
  | value
  /-- The first item of an array, or its end. -/
  | item
  /-- A key of an object with the entries so far, or its end if there are none. -/
  | key (done : List (Option String × Json))
  | colon (done : List (Option String × Json)) (key : Option String)
  /-- A separator or an end after a value. -/
  | after (value : Json)

def Expected.afterToken? : JsonToken → Option Expected
  | .beginObject => some (.key [])
  | .beginArray => some .item
  | .null => some (.after .null)
  | .bool b => some (.after (.bool b))
  | .number (some n) => some (.after (.integer n))
  | .number none => some (.after .real)
  | .string (some s) => some (.after (.string s))
  | .string none => some (.after .unpaired)
  | _ => none

/-- The text breaks off with a last value inside what is open. -/
def brokenOff (stack : List Frame) (last : Json) : JsonText :=
  ⟨stack.foldl (fun value frame => frame.close value) last, false⟩

def read (expected : Expected) (stack : List Frame) : List JsonToken → JsonText
  | [] =>
    match expected, stack with
    | .after value, [] => ⟨value, true⟩
    | .after value, .array done :: outer => brokenOff (.array (value :: done) :: outer) .cut
    | .after value, .object done key :: outer =>
      brokenOff (.object ((key, value) :: done) none :: outer) .cut
    | .value, _ => brokenOff stack .cut
    | .item, _ => brokenOff (.array [] :: stack) .cut
    | .key done, _ => brokenOff (.object done none :: stack) .cut
    | .colon done key, _ => brokenOff (.object done key :: stack) .cut
  | token :: rest =>
    match expected with
    | .value =>
      match Expected.afterToken? token with
      | some next => read next stack rest
      | none => brokenOff stack .cut
    | .item =>
      if token = .endArray then read (.after (.array [])) stack rest
      else
        match Expected.afterToken? token with
        | some next => read next (.array [] :: stack) rest
        | none => brokenOff (.array [] :: stack) .cut
    | .key done =>
      match token with
      | .string key => read (.colon done key) stack rest
      | .endObject =>
        if done.isEmpty then read (.after (.object [])) stack rest
        else brokenOff (.object done none :: stack) .cut
      | _ => brokenOff (.object done none :: stack) .cut
    | .colon done key =>
      if token = .colon then read .value (.object done key :: stack) rest
      else brokenOff (.object done key :: stack) .cut
    | .after value =>
      match stack with
      | [] => ⟨value, false⟩
      | .array done :: outer =>
        match token with
        | .comma => read .value (.array (value :: done) :: outer) rest
        | .endArray => read (.after (Frame.close (.array done) value)) outer rest
        | _ => brokenOff (.array (value :: done) :: outer) .cut
      | .object done key :: outer =>
        match token with
        | .comma => read (.key ((key, value) :: done)) outer rest
        | .endObject => read (.after (Frame.close (.object done key) value)) outer rest
        | _ => brokenOff (.object ((key, value) :: done) none :: outer) .cut

def ofText (text : String) : JsonText :=
  read .value [] (JsonToken.ofText text)

end Json

end Tabular
