/-
# Names of report files

The report on a covered file is written to a file named for it:

| options | name |
| --- | --- |
| none | `b.h.gcov` |
| preserve paths | `inc#b.h.gcov`: slashes are `#`, `..` is `^`, `.` is left out |
| long names | `main.c##b.h.gcov`, unless the file is the main source |
| hashed, and one of the two above | `b.h##` and 64 hexadecimal digits, `.gcov` |
-/
import ArcCoverage.Digest.Sha256
import ArcCoverage.Path.Basic
import ArcCoverage.Report.Options
import ArcCoverage.Text.Utf8

namespace ArcCoverage.OutputName

/-- A piece of a path, as it is shown in a file name. -/
def piece (s : List Char) : List Char := if s = ['.', '.'] then ['^'] else s

/-- **A whole path as one name.** -/
def preserved (path : List Char) : List Char :=
  Text.join '#' (((Text.split '/' path).filter (· != ['.'])).map piece)

/-- A path as a name. -/
def flatten (options : Options) (path : List Char) : List Char :=
  if options.preservePaths then preserved path else Path.baseName path

/-- Two names in one. -/
def pair (a b : List Char) : List Char := a ++ '#' :: '#' :: b

/-- The name of a covered file, perhaps behind that of the main source. -/
def plain (options : Options) (source file : List Char) : List Char :=
  let covered := flatten options file
  if options.longFileNames && file != source then pair (flatten options source) covered else covered

/-- The hash of a name, in hexadecimal. -/
def hashOf (name : List Char) : List Char :=
  (Sha256.hash (Utf8.encode (String.ofList name))).text.toList

/-- The name before the extension. -/
def stem (options : Options) (source file : List Char) : List Char :=
  let name := plain options source file
  if options.hashFilenames && (options.longFileNames || options.preservePaths) then
    pair (Path.baseName file) (hashOf name)
  else name

/-- **The name of the report on a file,** covered while a main source was compiled. -/
def ofFile (options : Options) (source file : String) : String :=
  String.ofList (stem options source.toList file.toList ++ ".gcov".toList)

end ArcCoverage.OutputName
