import Norns.Lib.Replace
import Norns.Lib.Utf8
import Mathlib.Data.List.Sort

/-! # The inspection of a repository

The schema and the key files of `contracts/repositoryInspection.ts`, and `WorkspaceRegistry.inspect` of
`workspaceRegistry.ts`. What git answers, the check of a repository's folder and `localeCompare` are parameters.

* `RepositoryInspection.Accepts`: the schema;
* `selectRepositoryKeyFiles`: the files that are worth reading;
* `usable`: the blobs of a tree, read from the lines of `git ls-tree`;
* `listPaths`, `readFiles`: the two loops that spend the budget;
* `inspect`: the report. -/

namespace Norns.Runner.Inspection

open Norns.Lib Norns.Lib.JsonText Norns.Lib.Utf8 Norns.Lib.Replace

def MAX_REPOSITORY_TREE_PATHS : ℕ := 400

def MAX_REPOSITORY_KEY_FILES : ℕ := 12

def MAX_REPOSITORY_FILE_CHARS : ℕ := 16000

def MAX_REPOSITORY_SAMPLE_CHARS : ℕ := 120000

/-! ### The schema -/

structure RepositoryInspectionFile where
  path : Text
  content : Text
  truncated : Bool

structure RepositoryInspection where
  repository_id : Text
  repository_display_name : Text
  default_branch : Text
  observed_head : Text
  total_files : ℕ
  tree_truncated : Bool
  tree_paths : List Text
  files : List RepositoryInspectionFile

/-- A segment that a path may have. -/
def safeSegment (segment : Text) : Prop := segment ≠ [] ∧ segment ≠ units "." ∧ segment ≠ units ".."

structure SafeRepositoryPath (value : Text) : Prop where
  min : 1 ≤ value.length
  max : value.length ≤ 1000
  relative : ¬ units "/" <+: value
  slashes : unit '\\' ∉ value
  segments : ∀ segment ∈ value.splitOn (unit '/'), safeSegment segment

structure SafeRepositoryDisplayName (value : Text) : Prop where
  min : 1 ≤ (trim value).length
  max : (trim value).length ≤ 240
  slash : unit '/' ∉ trim value
  backslash : unit '\\' ∉ trim value
  control : ∀ c ∈ trim value, ¬ (c.val < 32 ∨ c.val = 127)

def isAlphanumeric (c : CodeUnit) : Bool :=
  (unit '0' ≤ c && c ≤ unit '9') || (unit 'A' ≤ c && c ≤ unit 'Z') || (unit 'a' ≤ c && c ≤ unit 'z')

/-- `/^[A-Za-z0-9._:-]{1,200}$/` -/
structure RepositoryId (value : Text) : Prop where
  min : 1 ≤ value.length
  max : value.length ≤ 200
  chars : ∀ c ∈ value, isAlphanumeric c = true ∨ c ∈ units "._:-"

structure DefaultBranch (value : Text) : Prop where
  min : 1 ≤ value.length
  max : value.length ≤ 240
  relative : ¬ units "/" <+: value
  backslash : unit '\\' ∉ value
  control : ∀ c ∈ value, ¬ c.val < 32

def isHex (c : CodeUnit) : Bool := (unit '0' ≤ c && c ≤ unit '9') || (unit 'a' ≤ c && c ≤ unit 'f')

/-- `/^(?:[a-f0-9]{40}|[a-f0-9]{64})$/i` -/
structure ObservedHead (value : Text) : Prop where
  length : value.length = 40 ∨ value.length = 64
  chars : ∀ c ∈ value, isHex c = true ∨ (unit 'A' ≤ c ∧ c ≤ unit 'F')

def sampleChars (value : RepositoryInspection) : ℕ :=
  (value.tree_paths.map fun path => path.length + 1).sum +
    (value.files.map fun file => file.path.length + file.content.length).sum

/-- `RepositoryInspection` -/
structure RepositoryInspection.Accepts (value : RepositoryInspection) : Prop where
  repository_id : RepositoryId value.repository_id
  repository_display_name : SafeRepositoryDisplayName value.repository_display_name
  default_branch : DefaultBranch value.default_branch
  observed_head : ObservedHead value.observed_head
  tree_paths : ∀ path ∈ value.tree_paths, SafeRepositoryPath path
  tree_paths_max : value.tree_paths.length ≤ MAX_REPOSITORY_TREE_PATHS
  paths : ∀ file ∈ value.files, SafeRepositoryPath file.path
  contents : ∀ file ∈ value.files, file.content.length ≤ MAX_REPOSITORY_FILE_CHARS
  files_max : value.files.length ≤ MAX_REPOSITORY_KEY_FILES
  sample : sampleChars value ≤ MAX_REPOSITORY_SAMPLE_CHARS

/-! ### Key files -/

structure Blob where
  path : Text
  size : ℕ
  deriving DecidableEq

/-- `toLowerCase`, for the letters whose lower case is ASCII: the capitals and the Kelvin sign. -/
def lowerUnit (c : CodeUnit) : CodeUnit :=
  if unit 'A' ≤ c ∧ c ≤ unit 'Z' then c + 32 else if c.val = 0x212a then unit 'k' else c

def toLowerCase (t : Text) : Text := t.map lowerUnit

/-- What comes after the last slash. -/
def baseName (path : Text) : Text := (path.splitOn (unit '/')).getLast (List.splitOn_ne_nil _ _)

def readmeNames : List Text := ["readme", "readme.md", "readme.rst", "readme.txt", "readme.adoc"].map units

def manifestNames : List Text :=
  ["package.json", "pyproject.toml", "cargo.toml", "go.mod", "pom.xml", "build.gradle", "gemfile", "composer.json",
    "mix.exs"].map units

def configurationNames : List Text :=
  ["pnpm-workspace.yaml", "lerna.json", "turbo.json", "nx.json", "tsconfig.base.json", "tsconfig.json", "dockerfile",
    "docker-compose.yml", "docker-compose.yaml", "makefile"].map units

def designNames : List Text := ["architecture.md", "design.md", "contributing.md"].map units

/-- `/^(main|index|app|server|cli)\.(ts|tsx|js|mjs|py|go|rs|rb|java)$/` -/
def entryNames : List Text :=
  ["main", "index", "app", "server", "cli"].flatMap fun name =>
    ["ts", "tsx", "js", "mjs", "py", "go", "rs", "rb", "java"].map fun extension =>
      units name ++ units "." ++ units extension

def repositoryKeyFileScore (path : Text) : Option ℤ :=
  let depth := (path.splitOn (unit '/')).length - 1
  let base := toLowerCase (baseName path)
  let depthPenalty : ℤ := depth * 10
  if path = units ".norns/verification.json" then some (-1)
  else if base ∈ readmeNames then some depthPenalty
  else if base ∈ manifestNames then some (1 + depthPenalty)
  else if base ∈ configurationNames then some (2 + depthPenalty)
  else if base ∈ designNames then some (2 + depthPenalty)
  else if base ∈ entryNames then some (3 + depthPenalty)
  else none

section

variable (localeCompare : Text → Text → Ordering)

/-- The entry of the tree with its score, if it is worth reading. -/
def candidateOf (entry : Blob) : Option (Blob × ℤ) :=
  match repositoryKeyFileScore entry.path with
  | none => none
  | some score => if entry.size ≤ 512 * 1024 then some (entry, score) else none

def comesFirst (left right : Blob × ℤ) : Prop :=
  left.2 < right.2 ∨ (left.2 = right.2 ∧ localeCompare left.1.path right.1.path ≠ .gt)

instance : DecidableRel (comesFirst localeCompare) := fun _ _ => by unfold comesFirst; infer_instance

def selectRepositoryKeyFiles (tree : List Blob) : List Blob :=
  (((tree.filterMap candidateOf).insertionSort (comesFirst localeCompare)).take MAX_REPOSITORY_KEY_FILES).map Prod.fst

end

/-! ### The tree -/

/-- What a repeated class of a pattern takes, and what is left. -/
def many (p : CodeUnit → Bool) (t : Text) : Option (Text × Text) :=
  if t.takeWhile p = [] then none else some (t.takeWhile p, t.dropWhile p)

def literal (word t : Text) : Option Text := if word <+: t then some (t.drop word.length) else none

def isDigit (c : CodeUnit) : Bool := unit '0' ≤ c && c ≤ unit '9'

/-- `(\d+|-)`: a size, and none for the mark. -/
def sizeField (t : Text) : Option (Option Text × Text) :=
  match many isDigit t with
  | some (digits, rest) => some (some digits, rest)
  | none => (literal (units "-") t).map fun rest => (none, rest)

/-- `/^\d+\s+blob\s+[a-f0-9]+\s+(\d+|-)\t(.+)$/s`: the classes that follow each other have no unit in common. -/
def matchLine (line : Text) : Option (Option Text × Text) :=
  (many isDigit line).bind fun mode =>
  (many isSpace mode.2).bind fun space =>
  (literal (units "blob") space.2).bind fun kind =>
  (many isSpace kind).bind fun space =>
  (many isHex space.2).bind fun object =>
  (many isSpace object.2).bind fun space =>
  (sizeField space.2).bind fun size =>
  (literal (units "\t") size.2).bind fun path =>
  if path = [] then none else some (size.1, path)

/-- `Number(digits)` -/
def numberOf (digits : Text) : ℕ := digits.foldl (fun n c => 10 * n + (c.val - 48)) 0

/-- A number is finite below `2 ^ 1024 - 2 ^ 970`. -/
def isFinite (n : ℕ) : Bool := n < (2 ^ 54 - 1) * (2 ^ 97) ^ 10

/-- The path check of the helper. -/
def rejected (filePath : Text) : Prop :=
  units "/" <+: filePath ∨ unit '\\' ∈ filePath ∨
    ∃ segment ∈ filePath.splitOn (unit '/'), segment.length = 0 ∨ segment = units "." ∨ segment = units ".."

instance (filePath : Text) : Decidable (rejected filePath) := by unfold rejected; infer_instance

def blobOf (line : Text) : Option Blob :=
  match matchLine line with
  | some (some digits, filePath) =>
    if isFinite (numberOf digits) = false ∨ rejected filePath then none else some ⟨filePath, numberOf digits⟩
  | _ => none

/-- The blobs whose paths may be reported. -/
def usable (rawTree : Text) : List Blob :=
  ((rawTree.splitOn 0).filter fun line => line ≠ []).filterMap blobOf

/-! ### The registry and git -/

structure WorkspaceRecord where
  workspace_id : Text
  root_path : Text
  label : Text

structure RepositoryRecord where
  repository_id : Text
  workspace_id : Text
  repository_path : Text

structure Registry where
  workspaces : List WorkspaceRecord
  repositories : List RepositoryRecord

structure GitMetadata where
  defaultBranch : Text
  head : Text

/-- What git answers for a repository; a command without an answer throws. -/
structure Git where
  gitMetadata : Option GitMetadata
  lsTree : Option (List UInt8)
  showFile : Text → Option (List UInt8)

def Registry.repository (registry : Registry) (repositoryId : Text) : Option RepositoryRecord :=
  registry.repositories.find? fun entry => entry.repository_id = repositoryId

def Registry.workspace (registry : Registry) (id : Text) : Option WorkspaceRecord :=
  registry.workspaces.find? fun entry => entry.workspace_id = id

def sensitivePaths (registry : Registry) (repositoryId : Text) : List Text :=
  match registry.repository repositoryId with
  | none => []
  | some repository =>
    match registry.workspace repository.workspace_id with
    | none => []
    | some workspace => [workspace.root_path, repository.repository_path]

/-- A path, and the path without `/private`. -/
def forms (sensitivePath : Text) : List Text :=
  sensitivePath :: if units "/private/" <+: sensitivePath then [sensitivePath.drop 8] else []

def localPath : Text := units "[LOCAL_PATH]"

def safeLabel (value fallback : Text) : Text :=
  let candidate := (trim value).take 240
  if candidate ≠ [] ∧ unit '/' ∉ candidate ∧ unit '\\' ∉ candidate ∧ ¬ candidate.any fun c => c.val < 32 || c.val = 127
  then candidate else fallback

/-! ### The two loops -/

/-- The paths that are listed, and what is left of the budget. -/
def listPaths (budget : ℕ) : List Blob → List Text × ℕ
  | [] => ([], budget)
  | blob :: blobs =>
    let cost := blob.path.length + 1
    if cost > budget then ([], budget)
    else (blob.path :: (listPaths (budget - cost) blobs).1, (listPaths (budget - cost) blobs).2)

/-- The text of a file without the places on this machine. -/
def safeText (sensitive : List Text) (raw : List UInt8) : Text := redact localPath sensitive (decode raw)

/-- The files that are read; `none` when git throws. -/
def readFiles (showFile : Text → Option (List UInt8)) (sensitive : List Text) (budget : ℕ) :
    List Blob → Option (List RepositoryInspectionFile)
  | [] => some []
  | file :: files =>
    if budget ≤ file.path.length then some []
    else
      match showFile file.path with
      | none => none
      | some raw =>
        if 0 ∈ raw then readFiles showFile sensitive budget files
        else
          let content := safeText sensitive raw
          let cap := min MAX_REPOSITORY_FILE_CHARS (budget - file.path.length)
          if cap = 0 then some []
          else
            (readFiles showFile sensitive (budget - (file.path.length + min content.length cap)) files).map
              (⟨file.path, content.take cap, content.length > cap⟩ :: ·)

/-! ### The report -/

inductive Inspected
  /-- A command of git throws. -/
  | thrown
  /-- There is nothing to report. -/
  | nothing
  | report (value : RepositoryInspection)

section

variable (localeCompare : Text → Text → Ordering) (git : Git) (registry : Registry)
  (repositoryPath : Text → Option Text)

/-- The report for a tree. -/
def reportOf (repositoryId label path : Text) (metadata : GitMetadata) (sensitive : List Text) (blobs : List Blob) :
    Inspected :=
  if blobs.length = 0 then .nothing
  else
    let listed := listPaths MAX_REPOSITORY_SAMPLE_CHARS (blobs.take MAX_REPOSITORY_TREE_PATHS)
    match readFiles git.showFile sensitive listed.2 (selectRepositoryKeyFiles localeCompare blobs) with
    | none => .thrown
    | some files => .report {
        repository_id := repositoryId
        repository_display_name := safeLabel label (baseName path)
        default_branch := metadata.defaultBranch
        observed_head := metadata.head
        total_files := blobs.length
        tree_truncated := blobs.length > listed.1.length
        tree_paths := listed.1
        files }

/-- `repositoryPath` is the check of the repository's folder. -/
def inspect (repositoryId : Text) : Inspected :=
  match repositoryPath repositoryId with
  | none => .nothing
  | some path =>
    let sensitive := (sensitivePaths registry repositoryId).flatMap forms
    match registry.repository repositoryId with
    | none => .nothing
    | some repository =>
      match registry.workspace repository.workspace_id with
      | none => .nothing
      | some workspace =>
        match git.gitMetadata with
        | none => .nothing
        | some metadata =>
          match git.lsTree with
          | none => .thrown
          | some rawTree =>
            reportOf localeCompare git repositoryId workspace.label path metadata sensitive (usable (decode rawTree))

end

end Norns.Runner.Inspection
