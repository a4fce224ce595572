/-!
# The first page of a database file

A file that the database engine has written starts with a header of a hundred bytes, behind which
stand the cells of the first page. `Header.judge` says what the engine makes of the bytes of a file.
Of the files that it can read only one kind matters here: those in which nothing is stored yet.
-/

namespace CimStore.Header

/-- What the bytes of a file are to the database engine. -/
inductive Verdict
  /-- A file without a page. -/
  | empty
  /-- No database. -/
  | foreign
  /-- A database in a format that is not known. -/
  | unknownFormat
  | damaged
  /-- A database in which nothing is stored yet: whether it asks not to be changed, and whether there
  is room where it says so. -/
  | blank (isReadOnly hasRoom : Bool)
deriving DecidableEq, Repr

/-- The most bytes that a file may have and still count as empty. -/
def emptySize : Nat := 1

/-- The bytes that every database file starts with. -/
def signature : List UInt8 :=
  [0x53, 0x51, 0x4C, 0x69, 0x74, 0x65, 0x20, 0x66, 0x6F, 0x72, 0x6D, 0x61, 0x74, 0x20, 0x33, 0x00]

/-- The number that `size` bytes from a position on write, highest byte first. Bytes behind the end
are zeros. -/
def number (bs : List UInt8) (position size : Nat) : Nat :=
  let digits := (bs.drop position ++ List.replicate size 0).take size
  digits.foldl (fun n (b : UInt8) => 256 * n + b.toNat) 0

/-- The sizes that a page may have. -/
def pageSizes : List Nat := [512, 1024, 2048, 4096, 8192, 16384, 32768, 65536]

/-- The size of a page as the header says it. It is kept as a multiple of 256, without the highest
of its bits. -/
def pageSize (bs : List UInt8) : Nat := 256 * number bs 16 1 + 65536 * number bs 17 1

/-- The bytes of a page that cells may use. -/
def usableSize (bs : List UInt8) : Nat := pageSize bs - number bs 20 1

/-- The least number of bytes of a page that cells must be able to use. -/
def leastUsableSize : Nat := 480

/-- The highest version of the way to read a file, and of its format, that is known. -/
def highestVersion : Nat := 2

def highestFormat : Nat := 4

/-- Whether the header is one of a database. -/
def isKnown (bs : List UInt8) : Bool :=
  bs.take signature.length = signature && number bs 19 1 ≤ highestVersion &&
    number bs 21 3 = 0x402020 && pageSizes.contains (pageSize bs)

/-- Whether the header counts pages that the file does not have. The count is good if the change
that it was made for is the last one. -/
def lacksPages (bs : List UInt8) : Bool :=
  number bs 24 4 = number bs 92 4 && bs.length ≤ (number bs 28 4 - 1) * pageSize bs

/-- The pages of the file: those that the header counts, if the count is good. -/
def pages (bs : List UInt8) : Nat :=
  if number bs 24 4 = number bs 92 4 && number bs 28 4 ≠ 0 then number bs 28 4
  else (bs.length + pageSize bs - 1) / pageSize bs

/-- The mark of a page that holds rows of a table. -/
def rowsMark : Nat := 13

/-- Whether the first page is one without cells. -/
def isBlank (bs : List UInt8) : Bool := number bs 100 1 = rowsMark && number bs 103 2 = 0

/-- Whether there are the pages that the header says are free, or start a table. -/
def hasNamedPages (bs : List UInt8) : Bool :=
  number bs 36 4 < pages bs && number bs 52 4 ≤ pages bs

/-- Whether the first page, if it has no cells, has room for some: no part of it is free on its own,
and the free bytes lie between the header of the page and its end. -/
def hasRoom (bs : List UInt8) : Bool :=
  let start := number bs 105 2
  let free := number bs 107 1 + if start = 0 then 65536 else start
  number bs 101 2 = 0 && 108 ≤ free && free ≤ usableSize bs

/-- What the database engine makes of the bytes of a file. -/
def judge (bs : List UInt8) : Verdict :=
  if bs.length ≤ emptySize then .empty
  else if !isKnown bs then .foreign
  else if lacksPages bs then .damaged
  else if usableSize bs < leastUsableSize then .foreign
  else if highestFormat < number bs 47 1 then .unknownFormat
  else if !isBlank bs then .damaged
  else .blank (highestVersion < number bs 18 1) (hasNamedPages bs && hasRoom bs)

end CimStore.Header
