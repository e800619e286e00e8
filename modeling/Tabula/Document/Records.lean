import Tabula.Json
import Tabula.Json.Reader
import Tabula.Store

/-!
# Documents of records

A record is written as an object of its columns, and the records of a table as an array. A column
may hold a string, a truth value or an integer of 64 bits and nothing else. Of a column given twice
the last value counts, at the first place.
-/

namespace Tabula

open Json (Reader)

namespace Value

def toJson : Value → Json
  | .int number => .int number
  | .str text => .string text
  | .bool truth => .bool truth

def reader : Reader Value
  | .number (some number) :: rest => .ok (.int number, rest)
  | .string (some text) :: rest => .ok (.str text, rest)
  | .bool truth :: rest => .ok (.bool truth, rest)
  | _ => .error .malformed

end Value

namespace Record

def toJson (record : Record) : Json :=
  .object (record.entries.map fun entry => (entry.1, entry.2.toJson))

def reader : Reader Record := fun tokens =>
  match Reader.object (Reader.keyed Value.reader) tokens with
  | .error fault => .error fault
  | .ok (entries, rest) => .ok (.ofList entries, rest)

end Record

namespace Store

def toJson (store : Store) : Json :=
  .array (store.records.map Record.toJson)

def reader : Reader Store := fun tokens =>
  match Reader.array Record.reader tokens with
  | .error fault => .error fault
  | .ok (records, rest) => .ok (⟨records⟩, rest)

def ofDocument (text : String) : Except Error Store :=
  (reader.readAll text).mapError .document

end Store

end Tabula
