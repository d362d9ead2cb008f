/-
# Warehouse.Files.Path — `std::filesystem::path` on POSIX

A path is its text; a slash separates, and several in a row count as one.  The operations are those
the warehouse uses: `operator/`, iteration, `filename` and `extension`.
-/
import Mathlib.Data.List.DropRight
import Warehouse.Text

namespace Warehouse.Files

/-- `std::filesystem::path`, by its text -/
abbrev Path : Type := Bytes

/-- `is_absolute` -/
def isAbsolute (path : Path) : Bool := path.head? == some 47

/-- `operator/`: an absolute right operand replaces the left one. -/
def appended (left right : Path) : Path :=
  if isAbsolute right then right
  else if left.isEmpty || left.getLast? == some 47 then left ++ right
  else left ++ [47] ++ right

/-- The components a loop over the path sees: the root directory, the names, and an empty one where
the text ends with a separator behind a name. -/
def components (path : Path) : List Bytes :=
  let names := (path.splitOn 47).filter fun name => !name.isEmpty
  let root := if isAbsolute path then [lit "/"] else []
  let trailing := if path.getLast? == some 47 && !names.isEmpty then [[]] else []
  root ++ names ++ trailing

/-- `filename` -/
def filename (path : Path) : Bytes := path.rtakeWhile (· != 47)

/-- `extension`: the file name from its last dot on, unless that dot is the first byte. -/
def extension (path : Path) : Bytes :=
  let name := filename path
  if name == lit ".." || (name.rdropWhile (· != 46)).length ≤ 1 then []
  else 46 :: name.rtakeWhile (· != 46)

end Warehouse.Files
