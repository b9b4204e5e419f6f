import Norns.Execution.TaskContext

/-! # The names of staged inputs

`inputFilesForTask` of `taskContextAssembler.ts`: the approved attachments of a task, in their order, each with the name
under which the runner stages it.

* `baseName`, `pickName`: the name of an input, and what is put before a name that is used already;
* `inputFilesForTask`: the checks and the files;
* `Taken`: the names that earlier inputs have, told from their sanitised names;
* `staged_iff`: when the names are safe and no two are the same. -/

namespace Norns.Execution.InputFiles

open Norns.Lib Norns.Lib.JsonText Norns.Lib.Utf8 Norns.Execution.TaskContext

def MAX_TOTAL_TASK_INPUT_BYTES : ℕ := 64 * 1024 * 1024

/-! ### Names -/

/-- `/[\\/\0]/` -/
def isSeparator (c : CodeUnit) : Bool := c = unit '\\' || c = unit '/' || c = unit '\x00'

/-- `replace(/[\\/\0]/g, "_").trim().slice(0, 220)` -/
def sanitize (name : Text) : Text := (trim (name.map fun c => if isSeparator c then unit '_' else c)).take 220

def fallback (index : ℕ) : Text := units "input-" ++ units (toString (index + 1)) ++ units ".bin"

def baseName (index : ℕ) (original_filename : Option Text) : Text :=
  match original_filename with
  | none => fallback index
  | some name => if sanitize name = [] then fallback index else sanitize name

/-- The name with the position of its input before it. -/
def numbered (index : ℕ) (name : Text) : Text := units (toString (index + 1)) ++ units "-" ++ name

def pickName (index : ℕ) (usedNames : List Text) (name : Text) : Text :=
  if name ∈ usedNames then numbered index name else name

/-! ### Files -/

/-- An attachment of the package with its blob. -/
structure InputRow where
  id : Text
  original_filename : Option Text
  mime : Text
  sha256 : Text
  bytes : ℕ
  content : List UInt8

structure TaskInputFile where
  filename : Text
  media_type : Text
  context_ref : Reference

section

variable (digest : List UInt8 → Text) (documentId : Text → Text → Text) (baseUrl : Text)

/-- `store.put`, and the reference to what is stored. -/
def putInput (row : InputRow) : Except AssemblyError Reference :=
  if row.content = [] then
    .error (.emptySection (units "task context section \"approved_input:" ++ row.id ++ units "\" produced no bytes"))
  else
    let sha256 := digest row.content
    let id := documentId (units "approved_input:" ++ row.id) sha256
    .ok ⟨id, sha256, row.content.length, baseUrl ++ units "/api/v2/execution/task-context/" ++ id⟩

/-- The loop, from the input with this index. -/
def stage (index : ℕ) (usedNames : List Text) : List InputRow → Except AssemblyError (List TaskInputFile)
  | [] => .ok []
  | row :: rows => do
    if row.content.length ≠ row.bytes then
      .error (.refused .task_package_mismatch
        (units "approved input " ++ row.id ++ units " byte size does not match its attachment record")
        (units "Re-upload the input file and approve a new plan before retrying development."))
    else
      let filename := pickName index usedNames (baseName index row.original_filename)
      let stored ← putInput digest documentId baseUrl row
      if stored.content_hash ≠ row.sha256 then
        .error (.refused .task_package_mismatch
          (units "approved input " ++ row.id ++ units " content hash does not match its attachment record")
          (units "Re-upload the input file and approve a new plan before retrying development."))
      else
        let files ← stage (index + 1) (usedNames ++ [filename]) rows
        return ⟨filename, row.mime, stored⟩ :: files

def inputFilesForTask (taskId : Text) (rows : List InputRow) : Except AssemblyError (List TaskInputFile) :=
  let totalBytes := (rows.map InputRow.bytes).sum
  if rows.length > 32 then
    .error (.refused .context_too_large
      (units "task " ++ taskId ++ units " references " ++ units (toString rows.length) ++
        units " input files; at most 32 can be staged")
      (units "Remove unrelated attachments from the approved plan and retry development."))
  else if totalBytes > MAX_TOTAL_TASK_INPUT_BYTES then
    .error (.refused .context_too_large
      (units "task " ++ taskId ++ units " input files total " ++ units (toString totalBytes) ++
        units " bytes, over the " ++ units (toString MAX_TOTAL_TASK_INPUT_BYTES) ++ units "-byte limit")
      (units "Remove unrelated or oversized attachments from the approved plan and retry development."))
  else stage digest documentId baseUrl 0 [] rows

end

/-! ### The names of a list -/

/-- The names that the loop gives to inputs with these sanitised names. -/
def stagedNames (bases : List Text) : List Text :=
  bases.foldl (fun usedNames base => usedNames ++ [pickName usedNames.length usedNames base]) []

theorem stagedNames_concat (bases : List Text) (base : Text) :
    stagedNames (bases ++ [base]) =
      stagedNames bases ++ [pickName (stagedNames bases).length (stagedNames bases) base] := by
  unfold stagedNames
  rw [List.foldl_append]
  rfl

theorem length_stagedNames (bases : List Text) : (stagedNames bases).length = bases.length := by
  induction bases using List.reverseRecOn with
  | nil => rfl
  | append_singleton bases base ih =>
    rw [stagedNames_concat, List.length_append, List.length_append, ih]
    rfl

/-- The sanitised names of some inputs. -/
def baseNames (rows : List InputRow) : List Text := rows.mapIdx fun index row => baseName index row.original_filename

/-- What is known of a file from its input. -/
structure Stages (row : InputRow) (file : TaskInputFile) : Prop where
  media_type : file.media_type = row.mime
  content_hash : file.context_ref.content_hash = row.sha256
  byte_size : file.context_ref.byte_size = row.bytes

section

variable {digest : List UInt8 → Text} {documentId : Text → Text → Text} {baseUrl : Text}

theorem putInput_spec {row : InputRow} {stored : Reference} (h : putInput digest documentId baseUrl row = .ok stored) :
    stored.byte_size = row.content.length := by
  unfold putInput at h
  split_ifs at h
  injection h with h
  rw [← h]

/-- One input of the loop. -/
theorem stage_cons {index : ℕ} {usedNames : List Text} {row : InputRow} {rows : List InputRow} {files : List TaskInputFile}
    (h : stage digest documentId baseUrl index usedNames (row :: rows) = .ok files) :
    ∃ file rest, files = file :: rest ∧ Stages row file ∧
      file.filename = pickName index usedNames (baseName index row.original_filename) ∧
      stage digest documentId baseUrl (index + 1) (usedNames ++ [file.filename]) rows = .ok rest := by
  rw [stage] at h
  split_ifs at h with hbytes
  dsimp only at h
  rcases hput : putInput digest documentId baseUrl row with e | stored
  · rw [hput] at h
    cases h
  · rw [hput] at h
    change (if stored.content_hash ≠ row.sha256 then _ else _) = Except.ok files at h
    split_ifs at h with hhash
    rcases hrest : stage digest documentId baseUrl (index + 1)
        (usedNames ++ [pickName index usedNames (baseName index row.original_filename)]) rows with e | rest
    · rw [hrest] at h
      cases h
    · rw [hrest] at h
      injection h with h
      refine ⟨_, rest, h.symm, ⟨rfl, not_not.mp hhash, ?_⟩, rfl, hrest⟩
      rw [putInput_spec hput]
      exact not_not.mp hbytes

/-- The loop gives each input its file, and goes on with the names. -/
theorem stage_spec {rows : List InputRow} : ∀ {index : ℕ} {usedNames : List Text} {files : List TaskInputFile},
    usedNames.length = index → stage digest documentId baseUrl index usedNames rows = .ok files →
      List.Forall₂ Stages rows files ∧
        usedNames ++ files.map TaskInputFile.filename =
          (rows.mapIdx fun i row => baseName (i + index) row.original_filename).foldl
            (fun used base => used ++ [pickName used.length used base]) usedNames := by
  induction rows with
  | nil =>
    intro index usedNames files _ h
    rw [stage] at h
    injection h with h
    subst h
    exact ⟨List.Forall₂.nil, List.append_nil _⟩
  | cons row rows ih =>
    intro index usedNames files hlength h
    obtain ⟨file, rest, rfl, hfile, hname, hrest⟩ := stage_cons h
    have hlength' : (usedNames ++ [file.filename]).length = index + 1 := by
      simp [hlength]
    obtain ⟨hfiles, hnames⟩ := ih hlength' hrest
    refine ⟨hfiles.cons hfile, ?_⟩
    have hindex : (fun i (row : InputRow) => baseName (i + 1 + index) row.original_filename) =
        fun i row => baseName (i + (index + 1)) row.original_filename := by
      funext i row
      rw [Nat.add_right_comm, Nat.add_assoc]
    rw [List.mapIdx_cons, List.foldl_cons, hindex, Nat.zero_add, hlength, ← hname, ← hnames]
    simp

theorem inputFilesForTask_spec {taskId : Text} {rows : List InputRow} {files : List TaskInputFile}
    (h : inputFilesForTask digest documentId baseUrl taskId rows = .ok files) :
    List.Forall₂ Stages rows files ∧ files.map TaskInputFile.filename = stagedNames (baseNames rows) := by
  have hstage : stage digest documentId baseUrl 0 [] rows = .ok files := by
    unfold inputFilesForTask at h
    dsimp only at h
    split at h
    · cases h
    · split at h
      · cases h
      · exact h
  have hlength : ([] : List Text).length = 0 := rfl
  obtain ⟨hfiles, hnames⟩ := stage_spec hlength hstage
  rw [List.nil_append] at hnames
  exact ⟨hfiles, hnames⟩

end

/-! ### The numbers before the names -/

theorem digit_bounds {c : Char} {n : ℕ} (hc : c ∈ Nat.toDigits 10 n) : 48 ≤ c.toNat ∧ c.toNat ≤ 57 := by
  have hdigit := Nat.isDigit_of_mem_toDigits (by decide) (by decide) hc
  exact Char.isDigit_iff_toNat.mp hdigit

theorem units_toString (n : ℕ) : units (toString n) = (Nat.toDigits 10 n).map unit := by
  have hlist : (toString n).toList = Nat.toDigits 10 n := Nat.toList_repr
  unfold units
  rw [hlist, List.map_eq_flatMap]
  refine List.flatMap_congr fun c hc => ?_
  have hc := digit_bounds hc
  unfold charUnits
  rw [if_pos (by omega)]

/-- The code units of a number are digits. -/
theorem mem_units_toString {u : CodeUnit} {n : ℕ} (h : u ∈ units (toString n)) : 48 ≤ u.val ∧ u.val ≤ 57 := by
  rw [units_toString] at h
  obtain ⟨c, hc, rfl⟩ := List.mem_map.mp h
  have hc := digit_bounds hc
  have hval : (unit c).val = c.toNat := Nat.mod_eq_of_lt (by omega)
  omega

theorem units_toString_ne_nil (n : ℕ) : units (toString n) ≠ [] := by
  rw [units_toString]
  intro h
  exact Nat.toDigits_ne_nil (List.map_eq_nil_iff.mp h)

theorem units_toString_injective {m n : ℕ} (h : units (toString m) = units (toString n)) : m = n := by
  have hdecode : ∀ k : ℕ, (units (toString k)).map (fun u => Char.ofNat u.val) = Nat.toDigits 10 k := by
    intro k
    rw [units_toString, List.map_map]
    have hsame : ∀ c ∈ Nat.toDigits 10 k, ((fun u : CodeUnit => Char.ofNat u.val) ∘ unit) c = id c := by
      intro c hc
      have hc := digit_bounds hc
      have hval : (unit c).val = c.toNat := Nat.mod_eq_of_lt (by omega)
      rw [Function.comp_apply, hval, Char.ofNat_toNat]
      rfl
    rw [List.map_congr_left hsame, List.map_id]
  have hdigits : Nat.toDigits 10 m = Nat.toDigits 10 n := by
    rw [← hdecode m, ← hdecode n, h]
  have hparse := congrArg (fun digits => Nat.ofDigitChars 10 digits 0) hdigits
  simpa only [Nat.ofDigitChars_ten_toDigits] using hparse

/-- The number can be read back. -/
theorem takeWhile_numbered (index : ℕ) (name : Text) :
    (numbered index name).takeWhile (fun c => c ≠ unit '-') = units (toString (index + 1)) := by
  have hdigits : ∀ c ∈ units (toString (index + 1)), decide (c ≠ unit '-') = true := by
    intro c hc
    have hc := mem_units_toString hc
    refine decide_eq_true fun heq => ?_
    have hdash : (unit '-').val = 45 := rfl
    rw [heq] at hc
    omega
  have hdash : units "-" = [unit '-'] := rfl
  unfold numbered
  rw [List.append_assoc, List.takeWhile_append_of_pos hdigits, hdash, List.singleton_append,
    List.takeWhile_cons_of_neg (by simp), List.append_nil]

theorem numbered_index {i j : ℕ} {a b : Text} (h : numbered i a = numbered j b) : i = j := by
  have htake := takeWhile_numbered i a
  rw [h, takeWhile_numbered] at htake
  have hsucc := units_toString_injective htake
  omega

/-! ### Names that are taken -/

/-- An earlier input has the name: it is the sanitised name of one of them, or the numbered name of one whose own name
was taken. -/
inductive Taken : List Text → Text → Prop
  | base {bases : List Text} {name : Text} (h : name ∈ bases) : Taken bases name
  | numbered {earlier rest : List Text} {base : Text} (h : Taken earlier base) :
    Taken (earlier ++ base :: rest) (numbered earlier.length base)

theorem Taken.append {bases : List Text} {name : Text} (h : Taken bases name) (more : List Text) :
    Taken (bases ++ more) name := by
  cases h with
  | base h => exact Taken.base (List.mem_append_left _ h)
  | numbered h =>
    rw [List.append_assoc, List.cons_append]
    exact Taken.numbered h

/-- What one more input takes. -/
theorem Taken.of_concat {bases : List Text} {last name : Text} (h : Taken (bases ++ [last]) name) :
    Taken bases name ∨ name = last ∨ (Taken bases last ∧ name = InputFiles.numbered bases.length last) := by
  generalize hbases : bases ++ [last] = all at h
  cases h with
  | base h =>
    rw [← hbases] at h
    rcases List.mem_append.mp h with h | h
    · exact Or.inl (Taken.base h)
    · exact Or.inr (Or.inl (List.mem_singleton.mp h))
  | @numbered earlier rest base h =>
    rcases List.eq_nil_or_concat rest with rfl | ⟨rest', last', rfl⟩
    · obtain ⟨rfl, hlast⟩ := List.append_inj' hbases rfl
      obtain rfl := List.singleton_inj.mp hlast
      exact Or.inr (Or.inr ⟨h, rfl⟩)
    · rw [List.concat_eq_append, ← List.cons_append, ← List.append_assoc] at hbases
      obtain ⟨rfl, -⟩ := List.append_inj' hbases rfl
      exact Or.inl (Taken.numbered h)

/-- The names of the loop are the names that are taken. -/
theorem mem_stagedNames {bases : List Text} : ∀ {name : Text}, name ∈ stagedNames bases ↔ Taken bases name := by
  induction bases using List.reverseRecOn with
  | nil =>
    intro name
    constructor
    · intro h
      exact absurd h List.not_mem_nil
    · intro h
      generalize hnil : ([] : List Text) = all at h
      cases h with
      | base h => exact absurd (hnil ▸ h) List.not_mem_nil
      | numbered h => simp at hnil
  | append_singleton bases last ih =>
    intro name
    rw [stagedNames_concat, List.mem_append, List.mem_singleton, length_stagedNames]
    by_cases hlast : Taken bases last
    · have hpick : pickName bases.length (stagedNames bases) last = numbered bases.length last := if_pos (ih.mpr hlast)
      rw [hpick, ih]
      constructor
      · rintro (h | rfl)
        · exact h.append [last]
        · exact Taken.numbered hlast
      · intro h
        rcases h.of_concat with h | rfl | ⟨-, rfl⟩
        · exact Or.inl h
        · exact Or.inl hlast
        · exact Or.inr rfl
    · have hpick : pickName bases.length (stagedNames bases) last = last := if_neg fun h => hlast (ih.mp h)
      rw [hpick, ih]
      constructor
      · rintro (h | rfl)
        · exact h.append [last]
        · exact Taken.base (List.mem_append_right _ (List.mem_singleton_self _))
      · intro h
        rcases h.of_concat with h | rfl | ⟨htaken, -⟩
        · exact Or.inl h
        · exact Or.inr rfl
        · exact absurd htaken hlast

/-! ### Safe names -/

/-- A single path component that is not a special one. -/
def Safe (name : Text) : Prop :=
  name ≠ [] ∧ name ≠ units "." ∧ name ≠ units ".." ∧ ∀ c ∈ name, isSeparator c = false

/-- The characters of a sanitised name. -/
theorem mem_sanitize {name : Text} {c : CodeUnit} (h : c ∈ sanitize name) : isSeparator c = false := by
  unfold sanitize at h
  have htrim := List.mem_of_mem_take h
  unfold trim trimEnd trimStart at htrim
  have hstart := (List.dropWhile_suffix _).subset (List.mem_reverse.mp htrim)
  have hname := (List.dropWhile_suffix _).subset (List.mem_reverse.mp hstart)
  obtain ⟨d, -, rfl⟩ := List.mem_map.mp hname
  split_ifs with hd
  · rfl
  · exact Bool.eq_false_iff.mpr hd

theorem isSeparator_digit {u : CodeUnit} (h : 48 ≤ u.val ∧ u.val ≤ 57) : isSeparator u = false := by
  have hback : u ≠ unit '\\' := by
    rintro rfl
    exact absurd h (by decide)
  have hslash : u ≠ unit '/' := by
    rintro rfl
    exact absurd h (by decide)
  have hnul : u ≠ unit '\x00' := by
    rintro rfl
    exact absurd h (by decide)
  simp [isSeparator, hback, hslash, hnul]

theorem mem_fallback {index : ℕ} {c : CodeUnit} (h : c ∈ fallback index) : isSeparator c = false := by
  have hinput : (units "input-").all (fun d => !isSeparator d) = true := by decide
  have hbin : (units ".bin").all (fun d => !isSeparator d) = true := by decide
  unfold fallback at h
  rcases List.mem_append.mp h with h | h
  · rcases List.mem_append.mp h with h | h
    · simpa using List.all_eq_true.mp hinput c h
    · exact isSeparator_digit (mem_units_toString h)
  · simpa using List.all_eq_true.mp hbin c h

theorem length_fallback (index : ℕ) : 10 < (fallback index).length := by
  have hinput : (units "input-").length = 6 := rfl
  have hbin : (units ".bin").length = 4 := rfl
  have hdigits := List.length_pos_of_ne_nil (units_toString_ne_nil (index + 1))
  unfold fallback
  rw [List.length_append, List.length_append]
  omega

theorem baseName_cases (index : ℕ) (original_filename : Option Text) :
    baseName index original_filename = fallback index ∨
      ∃ name, baseName index original_filename = sanitize name ∧ sanitize name ≠ [] := by
  unfold baseName
  split
  · exact Or.inl rfl
  · rename_i name
    split_ifs with hempty
    · exact Or.inl rfl
    · exact Or.inr ⟨name, rfl, hempty⟩

/-- A sanitised name is safe, unless it is a special one. -/
theorem safe_baseName (index : ℕ) (original_filename : Option Text) :
    Safe (baseName index original_filename) ↔
      baseName index original_filename ≠ units "." ∧ baseName index original_filename ≠ units ".." := by
  have hplain : baseName index original_filename ≠ [] ∧ ∀ c ∈ baseName index original_filename, isSeparator c = false := by
    rcases baseName_cases index original_filename with h | ⟨name, h, hne⟩
    · rw [h]
      refine ⟨fun hnil => ?_, fun c hc => mem_fallback hc⟩
      have hlength := length_fallback index
      rw [hnil] at hlength
      simp at hlength
    · rw [h]
      exact ⟨hne, fun c hc => mem_sanitize hc⟩
  constructor
  · intro h
    exact ⟨h.2.1, h.2.2.1⟩
  · intro h
    exact ⟨hplain.1, h.1, h.2, hplain.2⟩

/-- A number before a name makes it no special one. -/
theorem safe_numbered {index : ℕ} {name : Text} (h : ∀ c ∈ name, isSeparator c = false) : Safe (numbered index name) := by
  obtain ⟨digit, digits, hdigits⟩ := List.exists_cons_of_ne_nil (units_toString_ne_nil (index + 1))
  have hcons : numbered index name = digit :: (digits ++ units "-" ++ name) := by
    unfold numbered
    rw [hdigits]
    simp
  have hdigit := mem_units_toString (hdigits ▸ List.mem_cons_self : digit ∈ units (toString (index + 1)))
  have hdot : (unit '.').val = 46 := rfl
  have hhead : ∀ t, digit :: (digits ++ units "-" ++ name) ≠ unit '.' :: t := by
    intro t heq
    rw [(List.cons.inj heq).1] at hdigit
    omega
  refine ⟨?_, ?_, ?_, fun c hc => ?_⟩
  · rw [hcons]
    exact List.cons_ne_nil _ _
  · rw [hcons]
    exact hhead []
  · rw [hcons]
    exact hhead [unit '.']
  · have hdash : (units "-").all (fun d => !isSeparator d) = true := by decide
    unfold numbered at hc
    rcases List.mem_append.mp hc with hc | hc
    · rcases List.mem_append.mp hc with hc | hc
      · exact isSeparator_digit (mem_units_toString hc)
      · simpa using List.all_eq_true.mp hdash c hc
    · exact h c hc

/-! ### When the names serve -/

/-- What the files of some inputs should be: one for each input, in their order, under different safe names. -/
structure Meets (rows : List InputRow) (files : List TaskInputFile) : Prop where
  inputs : List.Forall₂ Stages rows files
  distinct : (files.map TaskInputFile.filename).Nodup
  safe : ∀ file ∈ files, Safe file.filename

/-- No sanitised name is a special one, and none that is taken has the sanitised name of an earlier input for its numbered
name. -/
structure Clear (bases : List Text) : Prop where
  ordinary : ∀ base ∈ bases, base ≠ units "." ∧ base ≠ units ".."
  free : ∀ earlier base, (earlier ++ [base]) <+: bases → Taken earlier base → numbered earlier.length base ∉ earlier

/-- A numbered name is taken by an earlier sanitised name only: the numbers tell numbered names apart. -/
theorem taken_numbered {bases : List Text} {base : Text} (h : Taken bases (numbered bases.length base)) :
    numbered bases.length base ∈ bases := by
  generalize hname : numbered bases.length base = name at h
  cases h with
  | base h => exact h
  | @numbered earlier rest other h =>
    have hindex := numbered_index hname
    simp at hindex

/-- The name of one more input is new, unless its numbered name is an earlier one. -/
theorem pickName_fresh {bases : List Text} {base : Text} :
    pickName bases.length (stagedNames bases) base ∉ stagedNames bases ↔
      (Taken bases base → numbered bases.length base ∉ bases) := by
  unfold pickName
  by_cases hbase : base ∈ stagedNames bases
  · have htaken := mem_stagedNames.mp hbase
    rw [if_pos hbase, mem_stagedNames]
    constructor
    · intro h _ hmem
      exact h (Taken.base hmem)
    · intro h hnumbered
      exact h htaken (taken_numbered hnumbered)
  · rw [if_neg hbase]
    constructor
    · intro _ htaken
      exact absurd (mem_stagedNames.mpr htaken) hbase
    · intro _
      exact hbase

/-- **Distinct names**: by induction on the inputs. -/
theorem nodup_stagedNames {bases : List Text} : (stagedNames bases).Nodup ↔
    ∀ earlier base, (earlier ++ [base]) <+: bases → Taken earlier base → numbered earlier.length base ∉ earlier := by
  induction bases using List.reverseRecOn with
  | nil =>
    constructor
    · intro _ earlier base hpre
      have hnil := List.prefix_nil.mp hpre
      simp at hnil
    · intro _
      exact List.nodup_nil
  | append_singleton bases last ih =>
    have hconcat : (stagedNames (bases ++ [last])).Nodup ↔ (stagedNames bases).Nodup ∧
        pickName bases.length (stagedNames bases) last ∉ stagedNames bases := by
      rw [stagedNames_concat, length_stagedNames, ← List.concat_eq_append, List.nodup_concat]
      exact and_comm
    rw [hconcat, ih, pickName_fresh]
    constructor
    · rintro ⟨hbases, hlast⟩ earlier base hpre
      rcases List.prefix_concat_iff.mp hpre with heq | hpre
      · obtain ⟨rfl, hbase⟩ := List.append_inj' heq rfl
        obtain rfl := List.singleton_inj.mp hbase
        exact hlast
      · exact hbases earlier base hpre
    · intro h
      exact ⟨fun earlier base hpre => h earlier base (hpre.trans (List.prefix_append _ _)),
        h bases last (List.prefix_refl _)⟩

theorem mem_baseNames {rows : List InputRow} {base : Text} (h : base ∈ baseNames rows) :
    ∃ index original_filename, base = baseName index original_filename := by
  obtain ⟨index, hindex, rfl⟩ := List.mem_mapIdx.mp h
  exact ⟨index, _, rfl⟩

/-- **Safe names**: the numbered ones always are. -/
theorem safe_stagedNames {rows : List InputRow} : (∀ name ∈ stagedNames (baseNames rows), Safe name) ↔
    ∀ base ∈ baseNames rows, base ≠ units "." ∧ base ≠ units ".." := by
  constructor
  · intro h base hbase
    have hsafe := h base (mem_stagedNames.mpr (Taken.base hbase))
    exact ⟨hsafe.2.1, hsafe.2.2.1⟩
  · intro h name hname
    have hplain : ∀ base ∈ baseNames rows, Safe base := by
      intro base hbase
      have hordinary := h base hbase
      obtain ⟨index, original_filename, rfl⟩ := mem_baseNames hbase
      exact (safe_baseName index original_filename).mpr hordinary
    have htaken := mem_stagedNames.mp hname
    generalize baseNames rows = bases at htaken hplain
    cases htaken with
    | base hbase => exact hplain name hbase
    | @numbered earlier rest base _ =>
      have hbase := hplain base (List.mem_append_right _ List.mem_cons_self)
      exact safe_numbered hbase.2.2.2

/-- **The names serve** exactly when the sanitised names are clear. -/
theorem staged_iff (digest : List UInt8 → Text) (documentId : Text → Text → Text) (baseUrl taskId : Text)
    {rows : List InputRow} {files : List TaskInputFile}
    (h : inputFilesForTask digest documentId baseUrl taskId rows = .ok files) :
    Meets rows files ↔ Clear (baseNames rows) := by
  obtain ⟨hinputs, hnames⟩ := inputFilesForTask_spec h
  have hsafe : (∀ file ∈ files, Safe file.filename) ↔ ∀ name ∈ stagedNames (baseNames rows), Safe name := by
    rw [← hnames, List.forall_mem_map]
  constructor
  · intro hmeets
    have hdistinct := hmeets.distinct
    rw [hnames] at hdistinct
    exact ⟨safe_stagedNames.mp (hsafe.mp hmeets.safe), nodup_stagedNames.mp hdistinct⟩
  · intro hclear
    refine ⟨hinputs, ?_, hsafe.mpr (safe_stagedNames.mpr hclear.ordinary)⟩
    rw [hnames]
    exact nodup_stagedNames.mpr hclear.free

/-! #### Some inputs -/

def sampleDigest (_ : List UInt8) : Text := units "ca978112ca1bbdcafac231b39a23dc4da786eff8147c4e72b9807785afee48bb"

/-- An attachment with one byte. -/
def attachment (original_filename : String) : InputRow :=
  ⟨units "attachment", some (units original_filename), units "text/plain", sampleDigest [97], 1, [97]⟩

/-- The files of some attachments. -/
def filesOf (rows : List InputRow) : Except AssemblyError (List TaskInputFile) :=
  inputFilesForTask sampleDigest (fun _ sha256 => sha256) [] [] rows

/-- The file of an attachment under a name. -/
def fileNamed (filename : String) : TaskInputFile where
  filename := units filename
  media_type := units "text/plain"
  context_ref := ⟨sampleDigest [97], sampleDigest [97], 1, units "/api/v2/execution/task-context/" ++ sampleDigest [97]⟩

/-- A list where the names serve, by `staged_iff`. -/
theorem staged_iff_twice : filesOf [attachment "a", attachment "a"] = .ok [fileNamed "a", fileNamed "2-a"] ∧
    (Meets [attachment "a", attachment "a"] [fileNamed "a", fileNamed "2-a"] ↔
      Clear (baseNames [attachment "a", attachment "a"])) :=
  ⟨rfl, staged_iff sampleDigest (fun _ sha256 => sha256) [] [] rfl⟩

/-- The third file gets the name of the first one; and a file can be named after the directory above. -/
theorem name_given_twice :
    (filesOf [attachment "3-a", attachment "a", attachment "a"] =
        .ok [fileNamed "3-a", fileNamed "a", fileNamed "3-a"] ∧
      ¬ Meets [attachment "3-a", attachment "a", attachment "a"] [fileNamed "3-a", fileNamed "a", fileNamed "3-a"]) ∧
      filesOf [attachment ".."] = .ok [fileNamed ".."] ∧ ¬ Meets [attachment ".."] [fileNamed ".."] := by
  refine ⟨⟨rfl, fun h => ?_⟩, rfl, fun h => ?_⟩
  · have hdistinct := h.distinct
    simp [fileNamed] at hdistinct
  · have hsafe := h.safe (fileNamed "..") (List.mem_singleton_self _)
    exact hsafe.2.2.1 rfl

end Norns.Execution.InputFiles
