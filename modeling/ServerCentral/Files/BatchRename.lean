import ServerCentral.Auth.Store
import ServerCentral.Framework.Moves

/-!
# Renaming a selection by a pattern

`plan` computes the new name of every selected row from a pattern, and says which names
cannot be. `rename` sends one request for each row whose name changes. When a new name is
the current name of a selected row, every row is parked under a temporary name first, and
is given its own from there.

A folder maps names to files. A request that fails changes nothing; one that succeeds
replaces what is at its target.
-/

open Framework

namespace ServerCentral.Files

open Auth (trim)

structure DirEntry where
  name : String
  /-- `type === "dir"` -/
  isDir : Bool
  deriving DecidableEq, Repr

/-! ### The pattern -/

/-- The stem and the extension of an entry, as characters. A directory has none, nor has a
name whose only dot is its first character. -/
def splitExt (entry : DirEntry) : List Char × List Char :=
  let name := entry.name.toList
  let ext := (name.reverse.takeWhile (· ≠ '.')).reverse
  if entry.isDir || !name.contains '.' || name.length ≤ ext.length + 1 then (name, [])
  else (name.take (name.length - ext.length - 1), '.' :: ext)

/-- `padStart(width, "0")` -/
def padStart (width : ℕ) (digits : List Char) : List Char :=
  List.replicate (width - digits.length) '0' ++ digits

/-- What has been read of a token of the pattern. -/
inductive Token where
  | plain
  | hashes (run : ℕ)
  | dollar (digits : List Char)
  deriving DecidableEq, Repr

section Expand

variable (n : ℕ) (stem : List Char) (parts : List (List Char))

/-- The text of a token that has ended. -/
def Token.text : Token → List Char
  | .plain => []
  | .hashes run => padStart run (toString n).toList
  | .dollar [] => ['$']
  | .dollar digits =>
    let idx := digits.foldl (fun v d => 10 * v + (d.toNat - '0'.toNat)) 0
    if idx = 0 then [] else (parts[idx - 1]?).getD []

/-- A character at the beginning of a token. -/
def Token.start (c : Char) : List Char × Token :=
  if c = '#' then ([], .hashes 1)
  else if c = '$' then ([], .dollar [])
  else if c = '*' then (stem, .plain)
  else ([c], .plain)

/-- The next character, with what is written before the token it belongs to. -/
def Token.next (token : Token) (c : Char) : List Char × Token :=
  match token with
  | .hashes run => if c = '#' then ([], .hashes (run + 1)) else
    (token.text n parts ++ (Token.start stem c).1, (Token.start stem c).2)
  | .dollar digits => if c.isDigit then ([], .dollar (digits ++ [c])) else
    (token.text n parts ++ (Token.start stem c).1, (Token.start stem c).2)
  | .plain => Token.start stem c

def expandFrom : Token → List Char → List Char
  | token, [] => token.text n parts
  | token, c :: cs => (token.next n stem parts c).1 ++ expandFrom (token.next n stem parts c).2 cs

/-- `pattern.replace(/#+|\*|\$(\d+)/g, …)`: the counter, the stem, or a piece of it. -/
def expand (pattern : String) : List Char := expandFrom n stem parts .plain pattern.toList

end Expand

/-- The stem cut on the separator, each piece trimmed. -/
def splitParts (stem : List Char) (separator : String) : List (List Char) :=
  if separator = "" then [stem]
  else ((String.ofList stem).splitOn separator).map fun p => (trim p).toList

/-! ### The plan -/

/-- The fields of the form. -/
structure BatchForm where
  pattern : String
  start : ℕ
  keepExt : Bool
  separator : String
  deriving DecidableEq, Repr

structure Planned where
  entry : DirEntry
  /-- `to` -/
  target : String
  problem : Option String
  deriving DecidableEq, Repr

/-- The new name of the row with the counter `n`. -/
def newName (form : BatchForm) (n : ℕ) (entry : DirEntry) : String :=
  let stem := (splitExt entry).1
  .ofList (expand n stem (splitParts stem form.separator) form.pattern ++
    if form.keepExt then (splitExt entry).2 else [])

/-- Why a row cannot go ahead. -/
def problemOf (sources siblings targets : List String) (target : String) : Option String :=
  if target = "" ∨ target = "." ∨ target = ".." then some "Empty name"
  else if '/' ∈ target.toList then some "Names can't contain /"
  else if targets.count target > 1 then some "Two items would get this name"
  else if target ∉ sources ∧ target ∈ siblings then some "Already exists in this folder"
  else none

/-- The rows in the order in which the counter runs. -/
def plan (form : BatchForm) (ordered entries siblings : List DirEntry) : List Planned :=
  let rows := (ordered.zipIdx form.start).map fun row => (row.1, newName form row.2 row.1)
  rows.map fun row =>
    { entry := row.1, target := row.2
      problem := problemOf (entries.map DirEntry.name) (siblings.map DirEntry.name)
        (rows.map Prod.snd) row.2 }

/-! ### The requests -/

/-- A request to the agent: whether the host refuses it is given for every pair of names. -/
def renamePath {File : Type} (fails : String → String → Bool) (folder : Table String File)
    (src dest : String) : Option (Table String File) :=
  if fails src dest || !folder.has src then none else some (folder.move src dest)

/-- A row that was not renamed, and the name it was left under if it is not its own. -/
structure RenameFailure where
  name : String
  leftAs : Option String
  deriving DecidableEq, Repr

structure Pending where
  row : Planned
  /-- `at` -/
  position : String
  deriving DecidableEq, Repr

/-- The folder after the first loop, with the rows that are still to be renamed and the
failures. -/
structure Staged (File : Type) where
  folder : Table String File
  pending : List Pending
  failed : List RenameFailure

/-- The folder after the second loop, with what it has renamed and what it has not. -/
structure Placed (File : Type) where
  folder : Table String File
  renamed : List (String × String)
  failed : List RenameFailure

def parkName (stageId : String) (i : ℕ) : String := ".sc-rename-" ++ stageId ++ "-" ++ toString i

section Loops

variable {File : Type} (fails : String → String → Bool)

/-- Park the rows; the ones that fail keep their names. -/
def park (stageId : String) : List (Planned × ℕ) → Table String File → Staged File
  | [], folder => ⟨folder, [], []⟩
  | (p, i) :: rest, folder =>
    match renamePath fails folder p.entry.name (parkName stageId i) with
    | none =>
      let after := park stageId rest folder
      { after with failed := ⟨p.entry.name, none⟩ :: after.failed }
    | some folder =>
      let after := park stageId rest folder
      { after with pending := ⟨p, parkName stageId i⟩ :: after.pending }

/-- Give the rows their new names. -/
def place : List Pending → Table String File → Placed File
  | [], folder => ⟨folder, [], []⟩
  | p :: rest, folder =>
    match renamePath fails folder p.position p.row.target with
    | none =>
      let after := place rest folder
      let leftAs := if p.position = p.row.entry.name then none else some p.position
      { after with failed := ⟨p.row.entry.name, leftAs⟩ :: after.failed }
    | some folder =>
      let after := place rest folder
      { after with renamed := (p.row.entry.name, p.row.target) :: after.renamed }

/-- The rows whose name changes. -/
def changing (rows : List Planned) : List Planned := rows.filter fun p => p.target ≠ p.entry.name

/-- The folder after the batch, with what is reported as renamed and as failed. -/
def rename (stageId : String) (entries : List DirEntry) (rows : List Planned)
    (folder : Table String File) : Placed File :=
  let sources := entries.map DirEntry.name
  let staged :=
    if (changing rows).any fun p => sources.contains p.target then
      park fails stageId (changing rows).zipIdx folder
    else ⟨folder, (changing rows).map fun p => ⟨p, p.entry.name⟩, []⟩
  let placed := place fails staged.pending staged.folder
  { placed with failed := staged.failed ++ placed.failed }

end Loops

end ServerCentral.Files
