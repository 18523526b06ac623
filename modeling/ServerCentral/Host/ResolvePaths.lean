import ServerCentral.Backends.Zfs
import ServerCentral.ClientIp.Addresses
import ServerCentral.Framework.CodeUnits
import ServerCentral.Framework.Paths
import ServerCentral.Framework.ShellWords
import ServerCentral.Framework.Splitting

/-!
# Resolving path patterns

`resolvePaths` finds the paths that patterns match on a host, each with its real path. An agent
that advertises the capability does it itself (`runResolvePaths`): it lists one directory and
matches the last segment. For an older one the control plane sends a shell loop, whose words the
shell expands, and reads the answer back line by line (`parseOutput`).

The host's directories are `FileTree`, and `Locale` is what the shell's environment decides:
which characters a name is made of, how paths are ordered, and whether a pattern can match the
two dot entries of a directory.
-/

open Framework

namespace ServerCentral.Host

open Backends.Zfs (stringify)
open ClientIp (trim)

abbrev Path := List Char

structure ResolvedPath where
  path : Path
  realPath : Path
  deriving DecidableEq, Repr

/-- What a host has at its paths. -/
structure FileTree where
  /-- The names in a directory that can be listed, the dot entries left out. -/
  readdir : Path → Option (List Path)
  /-- Whether a path leads somewhere, links followed. -/
  stat : Path → Bool
  /-- Whether there is something at a path, be it a link that leads nowhere. -/
  lstat : Path → Bool
  realpath : Path → Option Path
  names_nodup : ∀ dir names, readdir dir = some names → names.Nodup
  names_plain : ∀ dir names, readdir dir = some names →
    ∀ name ∈ names, '/' ∉ name ∧ name ≠ ['.'] ∧ name ≠ ['.', '.']

/-! ### Patterns -/

/-- `SAFE_GLOB_RE`. -/
def safeGlob : Path → Bool
  | '/' :: rest => rest.all fun c => c.isAlphanum || ['_', '.', '-', '/', '*', '?'].contains c
  | _ => false

def isWild (segment : Path) : Bool := segment.contains '*' || segment.contains '?'

/-- The letters of a pattern against those of a name: `?` stands for one letter that `any`
allows, `*` for a run of them, and every other character for itself. -/
def matchLetters (any : ℕ → Bool) : Path → List ℕ → Bool
  | [], letters => letters.isEmpty
  | c :: pattern, letters =>
    if c = '*' then
      (List.range (letters.length + 1)).any fun n =>
        (letters.take n).all any && matchLetters any pattern (letters.drop n)
    else
      match letters with
      | [] => false
      | letter :: rest =>
        (if c = '?' then any letter else letter == c.toNat) && matchLetters any pattern rest

/-! ### The agent -/

/-- `segmentMatcher`: a regular expression on code units. -/
def segmentMatcher (segment name : Path) : Bool :=
  matchLetters (fun unit => unit != '/'.toNat) segment (codeUnits name)

/-- The directory of a pattern and its last segment, cut at the last slash. -/
def dirLeaf (pattern : Path) : Path × Path :=
  match splitLast '/' pattern with
  | some (dir, leaf) => (if dir = [] then ['/'] else dir, leaf)
  | none => (if pattern.dropLast = [] then ['/'] else pattern.dropLast, pattern)

/-- `sort()` of names. -/
def sortNames (names : List Path) : List Path :=
  names.mergeSort fun a b => decide (codeUnits a ≤ codeUnits b)

/-- The paths that one pattern adds, those already seen included. -/
def candidates (fs : FileTree) (pattern : Path) : List Path :=
  let (dir, leaf) := dirLeaf pattern
  if !isWild leaf then if fs.stat pattern then [pattern] else []
  else (sortNames (((fs.readdir dir).getD []).filter (segmentMatcher leaf))).map
    fun name => dir ++ '/' :: name

/-- `add`: a path that was seen is not added again. -/
def add (fs : FileTree) (out : List ResolvedPath) (path : Path) : List ResolvedPath :=
  if out.any (·.path = path) then out else out ++ [⟨path, (fs.realpath path).getD path⟩]

def runResolvePaths (fs : FileTree) (patterns : List Path) : List ResolvedPath :=
  patterns.foldl (fun out pattern => (candidates fs pattern).foldl (add fs) out) []

/-! ### The shell -/

structure Locale where
  /-- The characters of a name, as a pattern counts them. -/
  letters : Path → List ℕ
  /-- Whether a pattern can match the entries `.` and `..`. -/
  dots : Bool
  /-- The collating order of paths. -/
  le : Path → Path → Bool
  total : ∀ a b, le a b || le b a
  trans : ∀ a b c, le a b → le b c → le a c
  antisymm : ∀ a b, le a b → le b a → a = b

/-- The entries of a directory, as the shell reads them. -/
def entries (locale : Locale) (fs : FileTree) (dir : Path) : List Path :=
  match fs.readdir dir with
  | some names => names ++ if locale.dots then [['.'], ['.', '.']] else []
  | none => []

/-- A segment of a pattern against an entry: a leading dot has to be written. -/
def segmentMatches (locale : Locale) (segment name : Path) : Bool :=
  (name.head? != some '.' || segment.head? == some '.') &&
    matchLetters (fun _ => true) segment (locale.letters name)

/-- The paths that a pattern's segments stand for below a directory. -/
def expand (locale : Locale) (fs : FileTree) : Path → List Path → List Path
  | dir, [] => [dir]
  | dir, segment :: rest =>
    if isWild segment then
      ((entries locale fs (if dir = [] then ['/'] else dir)).filter
        (segmentMatches locale segment)).flatMap fun name => expand locale fs (dir ++ '/' :: name) rest
    else expand locale fs (dir ++ '/' :: segment) rest

/-- Pathname expansion: the paths in their order, and the pattern itself where there is none. -/
def expansion (locale : Locale) (fs : FileTree) (pattern : Path) : List Path :=
  if isWild pattern then
    match ((expand locale fs [] (segments pattern).tail).filter fs.lstat).mergeSort locale.le with
    | [] => [pattern]
    | paths => paths
  else [pattern]

/-- A word that is not quoted anywhere. -/
def plainWord : Shell.Token → Option Path
  | .word word => if word = word.text.map .plain then some word.text else none
  | _ => none

/-- The words between `in` and `;`, as the shell cuts them. -/
def loopPatterns (patterns : List Path) : Option (List Path) :=
  (Shell.tokens (join ' ' patterns)).bind fun tokens => tokens.mapM plainWord

/-- `$(readlink -f "$p" 2>/dev/null || echo "$p")`, whose last line ends are dropped. -/
def shownPath (fs : FileTree) (path : Path) : Path :=
  (((fs.realpath path).getD path).reverse.dropWhile (· = '\n')).reverse

/-- What the loop prints: a line for each word with something behind it. -/
def loopOutput (locale : Locale) (fs : FileTree) (patterns : List Path) : List Char :=
  (((loopPatterns patterns).getD []).flatMap (expansion locale fs)).filter fs.stat |>.flatMap
    fun path => path ++ '\t' :: shownPath fs path ++ ['\n']

/-- A line of the output, cut at its first tab; one without a tab is left out. -/
def parseLine (line : List Char) : Option ResolvedPath :=
  (splitFirst '\t' line).map fun (path, realPath) => ⟨path, trim realPath⟩

def parseOutput (stdout : List Char) : List ResolvedPath :=
  (stdout.splitOn '\n').filterMap parseLine

/-! ### The request -/

/-- `HostAgent.resolvePaths` with an agent that has the capability, or has not. -/
def resolvePaths (hasResolvePaths : Bool) (locale : Locale) (fs : FileTree)
    (patterns : List Path) : Except String (List ResolvedPath) :=
  match patterns.find? (!safeGlob ·) with
  | some pattern =>
    let shown := stringify (String.ofList pattern)
    .error s!"Invalid path pattern: {shown}"
  | none =>
    if hasResolvePaths then .ok (runResolvePaths fs patterns)
    else .ok (parseOutput (loopOutput locale fs patterns))

end ServerCentral.Host
