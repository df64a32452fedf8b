import Mathlib.Data.List.Basic

/-!
# File names

`sanitizeFileName` of `utils/file-sharing/filename.ts`, applied on both sides of a transfer:
by `getFileName` to the files a sharer picked, and by the message schemas to every file name
that arrives. The two regular expressions are written out over the characters.
-/

namespace Rapidly.FileSharing

/-- The characters Windows refuses in a file name (`WINDOWS_UNSAFE_CHARS`). -/
def windowsUnsafeChars : List Char := ['<', '>', ':', '"', '|', '?', '*']

/-- What may follow a device name in a segment: the end, or an extension. -/
def endsDeviceName : List Char → Bool
  | [] => true
  | c :: _ => c = '.'

/-- The segment is a Windows device name, in any case, with or without an extension
(`WINDOWS_RESERVED_NAMES`). -/
def isWindowsReserved (seg : List Char) : Bool :=
  match seg.map Char.toUpper with
  | 'C' :: 'O' :: 'N' :: rest => endsDeviceName rest
  | 'P' :: 'R' :: 'N' :: rest => endsDeviceName rest
  | 'A' :: 'U' :: 'X' :: rest => endsDeviceName rest
  | 'N' :: 'U' :: 'L' :: rest => endsDeviceName rest
  | 'C' :: 'O' :: 'M' :: d :: rest => d.isDigit && endsDeviceName rest
  | 'L' :: 'P' :: 'T' :: d :: rest => d.isDigit && endsDeviceName rest
  | _ => false

/-- `sanitizeFileName`: backslashes become slashes, characters Windows refuses become
underscores, and device names get an underscore in front. -/
def sanitizeFileName (name : String) : String :=
  let slashed := name.toList.map fun c => if c = '\\' then '/' else c
  let replaced := slashed.map fun c => if c ∈ windowsUnsafeChars then '_' else c
  let segments := (replaced.splitOn '/').map fun seg =>
    if isWindowsReserved seg then '_' :: seg else seg
  String.ofList (['/'].intercalate segments)

example : sanitizeFileName "docs\\con.txt" = "docs/_con.txt" := by decide

end Rapidly.FileSharing
