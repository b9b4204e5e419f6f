import Norns.Lib.Sort
import Norns.Runner.Inspection
import Mathlib.Data.List.Perm.Subperm

/-! # Which reports are acceptable

What `WorkspaceRegistry.inspect` reports, beside the schema of a report.

* `usable_safe`: a usable path passes every path rule but the one for its length;
* `listPaths_spec`, `readFiles_spec`: what the two loops report and what they spend;
* `report_meets`: a report keeps to everything, when no path is too long;
* `inspect_exact`: some content shows a path that is too long. -/

namespace Norns.Runner.Report

open Norns.Lib Norns.Lib.JsonText Norns.Lib.Utf8 Norns.Lib.Replace Norns.Runner.Inspection

/-! ### Paths -/

theorem usable_not_rejected {rawTree : Text} {b : Blob} (h : b ∈ usable rawTree) : ¬ rejected b.path := by
  obtain ⟨line, -, hblob⟩ := List.mem_filterMap.mp h
  unfold blobOf at hblob
  split at hblob
  · split_ifs at hblob with hcheck
    obtain rfl := Option.some.inj hblob
    exact fun hrejected => hcheck (Or.inr hrejected)
  · cases hblob

/-- **The path rules** that the helper checks too. -/
theorem usable_safe {rawTree : Text} {b : Blob} (h : b ∈ usable rawTree) :
    SafeRepositoryPath b.path ↔ b.path.length ≤ 1000 := by
  have hnot := usable_not_rejected h
  unfold rejected at hnot
  refine ⟨SafeRepositoryPath.max, fun hmax => ?_⟩
  have hsegments : ∀ segment ∈ b.path.splitOn (unit '/'), safeSegment segment := by
    intro segment hsegment
    refine ⟨fun hnil => ?_, fun hdot => ?_, fun hdots => ?_⟩
    · exact hnot (Or.inr (Or.inr ⟨segment, hsegment, Or.inl (List.length_eq_zero_iff.mpr hnil)⟩))
    · exact hnot (Or.inr (Or.inr ⟨segment, hsegment, Or.inr (Or.inl hdot)⟩))
    · exact hnot (Or.inr (Or.inr ⟨segment, hsegment, Or.inr (Or.inr hdots)⟩))
  refine ⟨?_, hmax, fun hslash => hnot (Or.inl hslash), fun hback => hnot (Or.inr (Or.inl hback)), hsegments⟩
  by_contra hempty
  have hnil : b.path = [] := List.length_eq_zero_iff.mp (by omega)
  refine (hsegments [] ?_).1 rfl
  rw [hnil]
  decide

/-! ### The two loops -/

/-- The characters that paths cost. -/
def pathCosts (blobs : List Blob) : ℕ := (blobs.map fun b => b.path.length + 1).sum

/-- The first blobs of a list, as many as the paths leave room for. -/
structure Sampled (budget : ℕ) (blobs start : List Blob) : Prop where
  first : start <+: blobs
  fits : pathCosts start ≤ budget
  longest : ∀ longer, longer <+: blobs → pathCosts longer ≤ budget → longer <+: start

theorem pathCosts_cons (b : Blob) (blobs : List Blob) : pathCosts (b :: blobs) = b.path.length + 1 + pathCosts blobs :=
  List.sum_cons

/-- What the first loop lists, and what it leaves. -/
theorem listPaths_spec (blobs : List Blob) : ∀ budget, ∃ start, Sampled budget blobs start ∧
    listPaths budget blobs = (start.map Blob.path, budget - pathCosts start) := by
  induction blobs with
  | nil =>
    intro budget
    exact ⟨[], ⟨List.nil_prefix, Nat.zero_le _, fun _ hlonger _ => hlonger⟩, rfl⟩
  | cons b blobs ih =>
    intro budget
    unfold listPaths
    dsimp only
    by_cases hover : b.path.length + 1 > budget
    · rw [if_pos hover]
      refine ⟨[], ⟨List.nil_prefix, Nat.zero_le _, fun longer hlonger hfits => ?_⟩, rfl⟩
      cases longer with
      | nil => exact List.nil_prefix
      | cons d longer =>
        obtain rfl := (List.cons_prefix_cons.mp hlonger).1
        rw [pathCosts_cons] at hfits
        omega
    · obtain ⟨start, ⟨hfirst, hfits, hlongest⟩, hlist⟩ := ih (budget - (b.path.length + 1))
      rw [if_neg hover, hlist]
      refine ⟨b :: start, ⟨List.cons_prefix_cons.mpr ⟨rfl, hfirst⟩, ?_, fun longer hlonger hcosts => ?_⟩, ?_⟩
      · rw [pathCosts_cons]
        omega
      · cases longer with
        | nil => exact List.nil_prefix
        | cons d longer =>
          obtain ⟨rfl, hrest⟩ := List.cons_prefix_cons.mp hlonger
          rw [pathCosts_cons] at hcosts
          exact List.cons_prefix_cons.mpr ⟨rfl, hlongest longer hrest (by omega)⟩
      · rw [pathCosts_cons, List.map_cons, Nat.sub_sub]

/-- A sample is determined by its list. -/
theorem Sampled.unique {budget : ℕ} {blobs start start' : List Blob} (h : Sampled budget blobs start)
    (h' : Sampled budget blobs start') : start = start' :=
  (h'.longest start h.first h.fits).eq_of_length_le (h.longest start' h'.first h'.fits).length_le

/-- What a file of a report says of a file of the tree. -/
structure Shows (showFile : Text → Option (List UInt8)) (sensitive : List Text) (file : RepositoryInspectionFile) : Prop where
  size : file.content.length ≤ MAX_REPOSITORY_FILE_CHARS
  content : ∃ raw, showFile file.path = some raw ∧ 0 ∉ raw ∧ file.content <+: safeText sensitive raw ∧
    (file.truncated = true ↔ file.content ≠ safeText sensitive raw)

/-- A key file that comes before the room is used up. -/
def Reached (room : ℕ) (keyFiles : List Blob) (f : Blob) : Prop :=
  ∃ before after, keyFiles = before ++ f :: after ∧ ∀ g ∈ before ++ [f], g.path.length < room

theorem Reached.mono {room room' : ℕ} {keyFiles : List Blob} {f : Blob} (h : Reached room keyFiles f) (hle : room ≤ room') :
    Reached room' keyFiles f := by
  obtain ⟨before, after, hsplit, hlt⟩ := h
  exact ⟨before, after, hsplit, fun g hg => (hlt g hg).trans_le hle⟩

theorem Reached.cons {room : ℕ} {keyFiles : List Blob} {f g : Blob} (hg : g.path.length < room)
    (h : Reached room keyFiles f) : Reached room (g :: keyFiles) f := by
  obtain ⟨before, after, rfl, hlt⟩ := h
  refine ⟨g :: before, after, rfl, fun b hb => ?_⟩
  rcases List.mem_cons.mp hb with rfl | hb
  · exact hg
  · exact hlt b hb

/-- What the second loop reports. -/
structure Read (showFile : Text → Option (List UInt8)) (sensitive : List Text) (budget : ℕ) (keyFiles : List Blob)
    (files : List RepositoryInspectionFile) : Prop where
  spent : (files.map fun file => file.path.length + file.content.length).sum ≤ budget
  picked : ∃ picked : List Blob, picked.Sublist keyFiles ∧ files.map RepositoryInspectionFile.path = picked.map Blob.path
  shows : ∀ file ∈ files, Shows showFile sensitive file
  reached : ∀ file ∈ files, ∃ f, Reached budget keyFiles f ∧ f.path = file.path

theorem read_nil (showFile : Text → Option (List UInt8)) (sensitive : List Text) (budget : ℕ) (keyFiles : List Blob) :
    Read showFile sensitive budget keyFiles [] where
  spent := Nat.zero_le _
  picked := ⟨[], List.nil_sublist _, rfl⟩
  shows := fun _ h => absurd h List.not_mem_nil
  reached := fun _ h => absurd h List.not_mem_nil

/-- **The second loop** spends what it has and reports starts of the files. -/
theorem readFiles_spec (showFile : Text → Option (List UInt8)) (sensitive : List Text) (keyFiles : List Blob) :
    ∀ budget files, readFiles showFile sensitive budget keyFiles = some files →
      Read showFile sensitive budget keyFiles files := by
  induction keyFiles with
  | nil =>
    intro budget files h
    obtain rfl := Option.some.inj h
    exact read_nil _ _ _ _
  | cons f keyFiles ih =>
    intro budget files h
    unfold readFiles at h
    by_cases hroom : budget ≤ f.path.length
    · rw [if_pos hroom] at h
      obtain rfl := Option.some.inj h
      exact read_nil _ _ _ _
    · rw [if_neg hroom] at h
      have hlt := not_le.mp hroom
      rcases hshow : showFile f.path with _ | raw
      · rw [hshow] at h
        cases h
      · rw [hshow] at h
        dsimp only at h
        by_cases hbinary : 0 ∈ raw
        · rw [if_pos hbinary] at h
          obtain ⟨hspent, ⟨picked, hsub, hpaths⟩, hshows, hreached⟩ := ih budget files h
          refine ⟨hspent, ⟨picked, hsub.cons f, hpaths⟩, hshows, fun file hfile => ?_⟩
          obtain ⟨g, hg, hpath⟩ := hreached file hfile
          exact ⟨g, hg.cons hlt, hpath⟩
        · rw [if_neg hbinary] at h
          have hcap : min MAX_REPOSITORY_FILE_CHARS (budget - f.path.length) ≠ 0 := by
            have hmax : MAX_REPOSITORY_FILE_CHARS = 16000 := rfl
            omega
          rw [if_neg hcap] at h
          generalize hcapEq : min MAX_REPOSITORY_FILE_CHARS (budget - f.path.length) = cap at h hcap
          generalize hcontent : safeText sensitive raw = content at h
          obtain ⟨rest, hrest, rfl⟩ := Option.map_eq_some_iff.mp h
          obtain ⟨hspent, ⟨picked, hsub, hpaths⟩, hshows, hreached⟩ := ih _ rest hrest
          have hcapMax : cap ≤ MAX_REPOSITORY_FILE_CHARS := hcapEq ▸ min_le_left _ _
          have hcapRoom : cap ≤ budget - f.path.length := hcapEq ▸ min_le_right _ _
          refine ⟨?_, ⟨f :: picked, hsub.cons_cons f, ?_⟩, ?_, ?_⟩
          · rw [List.map_cons, List.sum_cons]
            dsimp only
            rw [List.length_take]
            omega
          · rw [List.map_cons, List.map_cons, hpaths]
          · intro file hfile
            rcases List.mem_cons.mp hfile with rfl | hfile
            · refine ⟨(List.length_take_le _ _).trans hcapMax, raw, hshow, hbinary, ?_, ?_⟩
              · rw [hcontent]
                exact List.take_prefix _ _
              · rw [hcontent, decide_eq_true_iff, ne_eq, List.take_eq_self_iff]
                omega
            · exact hshows file hfile
          · intro file hfile
            rcases List.mem_cons.mp hfile with rfl | hfile
            · exact ⟨f, ⟨[], keyFiles, rfl, fun g hg => List.mem_singleton.mp hg ▸ hlt⟩, rfl⟩
            · obtain ⟨g, hg, hpath⟩ := hreached file hfile
              exact ⟨g, (hg.mono (Nat.sub_le _ _)).cons hlt, hpath⟩

/-! ### The key files -/

theorem candidateOf_eq_some {entry blob : Blob} {score : ℤ} (h : candidateOf entry = some (blob, score)) :
    blob = entry ∧ repositoryKeyFileScore blob.path = some score ∧ blob.size ≤ 512 * 1024 := by
  unfold candidateOf at h
  split at h
  · cases h
  · rename_i hscore
    split_ifs at h with hsize
    obtain ⟨rfl, rfl⟩ := Prod.mk.inj (Option.some.inj h)
    exact ⟨rfl, hscore, hsize⟩

theorem candidates_sublist (tree : List Blob) : ((tree.filterMap candidateOf).map Prod.fst).Sublist tree := by
  induction tree with
  | nil => exact List.Sublist.refl _
  | cons entry tree ih =>
    rcases hcandidate : candidateOf entry with _ | ⟨blob, score⟩
    · rw [List.filterMap_cons_none hcandidate]
      exact ih.cons entry
    · rw [List.filterMap_cons_some hcandidate, List.map_cons]
      obtain rfl := (candidateOf_eq_some hcandidate).1
      exact ih.cons_cons blob

/-- Two key files in the order of their scores. -/
def InOrder (f g : Blob) : Prop :=
  ∀ m n, repositoryKeyFileScore f.path = some m → repositoryKeyFileScore g.path = some n → m ≤ n

section

variable (localeCompare : Text → Text → Ordering) (tree : List Blob)

/-- The scored files in the order of the comparison. -/
def scored : List (Blob × ℤ) := (tree.filterMap candidateOf).insertionSort (comesFirst localeCompare)

theorem mem_scored {f : Blob × ℤ} (h : f ∈ scored localeCompare tree) :
    f.1 ∈ tree ∧ repositoryKeyFileScore f.1.path = some f.2 ∧ f.1.size ≤ 512 * 1024 := by
  obtain ⟨entry, hentry, hcandidate⟩ := List.mem_filterMap.mp ((List.perm_insertionSort _ _).mem_iff.mp h)
  obtain ⟨hblob, hscore, hsize⟩ := candidateOf_eq_some hcandidate
  exact ⟨hblob ▸ hentry, hscore, hsize⟩

theorem scored_sorted : (scored localeCompare tree).Pairwise fun f g => f.2 ≤ g.2 := by
  have htrans : ∀ f g h : Blob × ℤ, f.2 ≤ g.2 → g.2 ≤ h.2 → f.2 ≤ h.2 := fun _ _ _ hfg hgh => hfg.trans hgh
  refine pairwise_insertionSort (fun f g h => ?_) (fun f g h => ?_) htrans _
  · rcases h with h | ⟨h, -⟩
    · exact h.le
    · exact h.le
  · exact not_lt.mp fun hlt => h (Or.inl hlt)

/-- **The key files** are files of the tree, small enough, in the order of their scores. -/
theorem keyFiles_spec : (selectRepositoryKeyFiles localeCompare tree).Subperm tree ∧
    (selectRepositoryKeyFiles localeCompare tree).Pairwise InOrder ∧
    (selectRepositoryKeyFiles localeCompare tree).length ≤ MAX_REPOSITORY_KEY_FILES ∧
    ∀ f ∈ selectRepositoryKeyFiles localeCompare tree,
      f.size ≤ 512 * 1024 ∧ ∃ score, repositoryKeyFileScore f.path = some score := by
  have hselect : selectRepositoryKeyFiles localeCompare tree =
      ((scored localeCompare tree).take MAX_REPOSITORY_KEY_FILES).map Prod.fst := rfl
  rw [hselect]
  refine ⟨?_, ?_, ?_, ?_⟩
  · have htake := ((List.take_sublist MAX_REPOSITORY_KEY_FILES (scored localeCompare tree)).map Prod.fst).subperm
    have hsort := ((List.perm_insertionSort (comesFirst localeCompare) (tree.filterMap candidateOf)).map Prod.fst).subperm
    exact (htake.trans hsort).trans (candidates_sublist tree).subperm
  · rw [List.pairwise_map]
    refine ((scored_sorted localeCompare tree).sublist (List.take_sublist _ _)).imp_of_mem ?_
    intro f g hf hg hle m n hm hn
    rw [(mem_scored _ _ (List.mem_of_mem_take hf)).2.1] at hm
    rw [(mem_scored _ _ (List.mem_of_mem_take hg)).2.1] at hn
    obtain rfl := Option.some.inj hm
    obtain rfl := Option.some.inj hn
    exact hle
  · rw [List.length_map]
    exact List.length_take_le _ _
  · intro f hf
    obtain ⟨⟨blob, score⟩, hmem, rfl⟩ := List.mem_map.mp hf
    obtain ⟨-, hscore, hsize⟩ := mem_scored _ _ (List.mem_of_mem_take hmem)
    exact ⟨hsize, score, hscore⟩

end

/-! ### Sites -/

/-- What begins with a slash begins nowhere inside the text that stands for a place. -/
theorem outside_of_absolute {u : Text} (h : units "/" <+: u) : Outside localPath u := by
  obtain ⟨rest, rfl⟩ := h
  intro j hj hmeet
  have hslash : unit '/' ∉ localPath := by decide
  obtain ⟨c, x, hdrop⟩ := List.exists_cons_of_ne_nil (List.drop_eq_nil_iff.not.mpr (not_le.mpr hj))
  have hmem : c ∈ localPath := List.mem_of_mem_drop (hdrop ▸ List.mem_cons_self)
  have hhead : units "/" ++ rest = unit '/' :: rest := rfl
  rw [hdrop, hhead] at hmeet
  rcases hmeet with hmeet | hmeet
  · exact hslash ((List.cons_prefix_cons.mp hmeet).1 ▸ hmem)
  · exact hslash ((List.cons_prefix_cons.mp hmeet).1 ▸ hmem)

/-- A repository that is known, with valid metadata. Its places, and those of its workspace, begin nowhere inside the
text that stands for a place, as absolute paths do. -/
structure Site where
  registry : Registry
  repositoryPath : Text → Option Text
  repositoryId : Text
  path : Text
  repository : RepositoryRecord
  workspace : WorkspaceRecord
  metadata : GitMetadata
  resolved : repositoryPath repositoryId = some path
  known : registry.repository repositoryId = some repository
  owned : registry.workspace repository.workspace_id = some workspace
  valid_id : RepositoryId repositoryId
  valid_name : SafeRepositoryDisplayName (safeLabel workspace.label (baseName path))
  valid_branch : DefaultBranch metadata.defaultBranch
  valid_head : ObservedHead metadata.head
  outside : ∀ place ∈ [workspace.root_path, repository.repository_path], Outside localPath place

namespace Site

variable (site : Site)

/-- The places, as they are replaced. -/
def sensitive : List Text := [site.workspace.root_path, site.repository.repository_path].flatMap forms

/-- The answers of git for a tree and some files. -/
def git (rawTree : List UInt8) (showFile : Text → Option (List UInt8)) : Git where
  gitMetadata := some site.metadata
  lsTree := some rawTree
  showFile := showFile

theorem inspect_eq (localeCompare : Text → Text → Ordering) (rawTree : List UInt8)
    (showFile : Text → Option (List UInt8)) :
    inspect localeCompare (site.git rawTree showFile) site.registry site.repositoryPath site.repositoryId =
      reportOf localeCompare (site.git rawTree showFile) site.repositoryId site.workspace.label site.path site.metadata
        site.sensitive (usable (decode rawTree)) := by
  have hplaces : sensitivePaths site.registry site.repositoryId =
      [site.workspace.root_path, site.repository.repository_path] := by
    unfold sensitivePaths
    rw [site.known]
    dsimp only
    rw [site.owned]
  unfold inspect
  rw [site.resolved, hplaces]
  dsimp only
  rw [site.known]
  dsimp only
  rw [site.owned]
  rfl

theorem outside_sensitive : ∀ u ∈ site.sensitive, Outside localPath u := by
  intro u hu
  obtain ⟨place, hplace, hform⟩ := List.mem_flatMap.mp hu
  unfold forms at hform
  rcases List.mem_cons.mp hform with rfl | hform
  · exact site.outside u hplace
  · split_ifs at hform with hprivate
    · obtain rfl := List.mem_singleton.mp hform
      obtain ⟨rest, rfl⟩ := hprivate
      exact outside_of_absolute ⟨rest, rfl⟩
    · exact absurd hform List.not_mem_nil

end Site

/-- The ways to write a place: as it is, with `/private`, and without it. -/
def spellings (place : Text) : List Text := (units "/private" ++ place) :: forms place

/-- What a report has to keep to. -/
structure Meets (site : Site) (showFile : Text → Option (List UInt8)) (blobs : List Blob) (value : RepositoryInspection) :
    Prop where
  accepted : value.Accepts
  tree : value.tree_paths <+: blobs.map Blob.path
  complete : value.tree_truncated = true ↔ value.tree_paths ≠ blobs.map Blob.path
  /-- The files come from different entries of the tree, which are key files in the order of their scores.
  Two names of git that decode to one text are two entries with one path. -/
  keyFiles : ∃ picked : List Blob, value.files.map RepositoryInspectionFile.path = picked.map Blob.path ∧
    picked.Subperm blobs ∧ picked.Pairwise InOrder ∧
    ∀ f ∈ picked, f.size ≤ 512 * 1024 ∧ ∃ score, repositoryKeyFileScore f.path = some score
  shows : ∀ file ∈ value.files, Shows showFile site.sensitive file
  clean : ∀ file ∈ value.files, ∀ place ∈ [site.workspace.root_path, site.repository.repository_path],
    ∀ u ∈ spellings place, ¬ u <:+: file.content

/-- No file is reported twice where the paths of the tree are different. -/
theorem Meets.nodup {site : Site} {showFile : Text → Option (List UInt8)} {blobs : List Blob}
    {value : RepositoryInspection} (h : Meets site showFile blobs value) (hblobs : (blobs.map Blob.path).Nodup) :
    (value.files.map RepositoryInspectionFile.path).Nodup := by
  obtain ⟨picked, hpaths, hsub, -⟩ := h.keyFiles
  rw [hpaths]
  obtain ⟨l, hperm, hsublist⟩ := hsub
  rw [← (hperm.map Blob.path).nodup_iff]
  exact hblobs.sublist (hsublist.map Blob.path)

/-- **No path is too long** that is listed, and none of a key file that is reached with some room left. -/
def Short (localeCompare : Text → Text → Ordering) (blobs : List Blob) : Prop :=
  ∀ start, Sampled MAX_REPOSITORY_SAMPLE_CHARS (blobs.take MAX_REPOSITORY_TREE_PATHS) start →
    (∀ b ∈ start, b.path.length ≤ 1000) ∧
      ∀ f, Reached (MAX_REPOSITORY_SAMPLE_CHARS - pathCosts start) (selectRepositoryKeyFiles localeCompare blobs) f →
        f.path.length ≤ 1000

/-- No text has a place right behind an opening of one. -/
def Apart (site : Site) (showFile : Text → Option (List UInt8)) : Prop :=
  ∀ path raw, showFile path = some raw → 0 ∉ raw → Unopened site.sensitive localPath (decode raw)

/-- What is reported is clean. -/
theorem clean_content {site : Site} {showFile : Text → Option (List UInt8)} (hapart : Apart site showFile)
    {file : RepositoryInspectionFile} (h : Shows showFile site.sensitive file) :
    ∀ place ∈ [site.workspace.root_path, site.repository.repository_path], ∀ u ∈ spellings place, ¬ u <:+: file.content := by
  obtain ⟨raw, hshow, hbinary, hprefix, -⟩ := h.content
  have hclean := redact_clean (by decide) site.outside_sensitive (hapart _ _ hshow hbinary)
  have hforms : ∀ place ∈ [site.workspace.root_path, site.repository.repository_path], ∀ u ∈ forms place,
      ¬ u <:+: file.content := by
    intro place hplace u hu hoccurs
    exact hclean u (List.mem_flatMap.mpr ⟨place, hplace, hu⟩) (hoccurs.trans hprefix.isInfix)
  intro place hplace u hu hoccurs
  rcases List.mem_cons.mp hu with rfl | hu
  · exact hforms place hplace place List.mem_cons_self ((List.suffix_append _ _).isInfix.trans hoccurs)
  · exact hforms place hplace u hu hoccurs

/-- A place that holds the text itself comes back: what stands before it opens it. -/
theorem place_reopens : units "/[LOCAL_PATH]" <:+: redact localPath [units "/[LOCAL_PATH]"] (units "//[LOCAL_PATH]") := by
  have hne : units "/[LOCAL_PATH]" ≠ [] := by decide
  have hskip : ¬ units "/[LOCAL_PATH]" <+: unit '/' :: units "/[LOCAL_PATH]" := by decide
  have hredact : redact localPath [units "/[LOCAL_PATH]"] (units "//[LOCAL_PATH]") = units "/[LOCAL_PATH]" := by
    show replaceAll (units "/[LOCAL_PATH]") localPath (unit '/' :: units "/[LOCAL_PATH]") = unit '/' :: localPath
    rw [replaceAll_skip hne hskip, replaceAll_self hne]
  rw [hredact]

/-! ### The report -/

section

variable (localeCompare : Text → Text → Ordering) (site : Site) (rawTree : List UInt8)

/-- What is reported, by the two loops. -/
theorem report_eq {showFile : Text → Option (List UInt8)} {value : RepositoryInspection}
    (h : inspect localeCompare (site.git rawTree showFile) site.registry site.repositoryPath site.repositoryId =
      .report value) :
    ∃ start files,
      Sampled MAX_REPOSITORY_SAMPLE_CHARS ((usable (decode rawTree)).take MAX_REPOSITORY_TREE_PATHS) start ∧
      readFiles showFile site.sensitive (MAX_REPOSITORY_SAMPLE_CHARS - pathCosts start)
        (selectRepositoryKeyFiles localeCompare (usable (decode rawTree))) = some files ∧
      value = {
        repository_id := site.repositoryId
        repository_display_name := safeLabel site.workspace.label (baseName site.path)
        default_branch := site.metadata.defaultBranch
        observed_head := site.metadata.head
        total_files := (usable (decode rawTree)).length
        tree_truncated := (usable (decode rawTree)).length > start.length
        tree_paths := start.map Blob.path
        files } := by
  obtain ⟨start, hsampled, hlist⟩ :=
    listPaths_spec ((usable (decode rawTree)).take MAX_REPOSITORY_TREE_PATHS) MAX_REPOSITORY_SAMPLE_CHARS
  rw [site.inspect_eq] at h
  unfold reportOf at h
  split_ifs at h
  dsimp only at h
  rw [hlist] at h
  dsimp only at h
  split at h
  · cases h
  · rename_i files hfiles
    rw [List.length_map] at h
    exact ⟨start, files, hsampled, hfiles, (Inspected.report.inj h).symm⟩

/-- **A report** keeps to everything when no path is too long. -/
theorem report_meets (hshort : Short localeCompare (usable (decode rawTree))) {showFile : Text → Option (List UInt8)}
    (hapart : Apart site showFile) {value : RepositoryInspection}
    (h : inspect localeCompare (site.git rawTree showFile) site.registry site.repositoryPath site.repositoryId =
      .report value) : Meets site showFile (usable (decode rawTree)) value := by
  obtain ⟨start, files, hsampled, hread, rfl⟩ := report_eq localeCompare site rawTree h
  obtain ⟨hspent, ⟨picked, hpicked, hpaths⟩, hshows, hreached⟩ := readFiles_spec _ _ _ _ _ hread
  obtain ⟨hsubperm, hordered, hmax, hkey⟩ := keyFiles_spec localeCompare (usable (decode rawTree))
  obtain ⟨hlisted, hfiles⟩ := hshort start hsampled
  have hstart : start <+: usable (decode rawTree) := hsampled.first.trans (List.take_prefix _ _)
  have hpickedMem : ∀ f ∈ picked, f ∈ usable (decode rawTree) := fun f hf => hsubperm.subset (hpicked.subset hf)
  refine ⟨⟨site.valid_id, site.valid_name, site.valid_branch, site.valid_head, ?_, ?_, ?_, ?_, ?_, ?_⟩, ?_, ?_, ?_,
    hshows, ?_⟩
  · intro path hpath
    obtain ⟨b, hb, rfl⟩ := List.mem_map.mp hpath
    exact (usable_safe (hstart.subset hb)).mpr (hlisted b hb)
  · rw [List.length_map]
    exact hsampled.first.length_le.trans (List.length_take_le _ _)
  · intro file hfile
    have hmem : file.path ∈ picked.map Blob.path := hpaths ▸ List.mem_map_of_mem hfile
    obtain ⟨b, hb, hpath⟩ := List.mem_map.mp hmem
    obtain ⟨f, hf, hfpath⟩ := hreached file hfile
    rw [← hpath]
    refine (usable_safe (hpickedMem b hb)).mpr ?_
    rw [hpath, ← hfpath]
    exact hfiles f hf
  · exact fun file hfile => (hshows file hfile).size
  · have hlength : files.length = picked.length := by
      have hl := congrArg List.length hpaths
      rwa [List.length_map, List.length_map] at hl
    exact hlength.trans_le (hpicked.length_le.trans hmax)
  · have hfits := hsampled.fits
    have hcosts : ((start.map Blob.path).map fun path => path.length + 1).sum = pathCosts start := by
      rw [List.map_map]
      rfl
    unfold sampleChars
    dsimp only
    rw [hcosts]
    omega
  · exact hstart.map Blob.path
  · dsimp only
    rw [decide_eq_true_iff]
    refine ⟨fun hlt heq => ?_, fun hne => ?_⟩
    · have hlength := congrArg List.length heq
      rw [List.length_map, List.length_map] at hlength
      omega
    · have hle := hstart.length_le
      by_contra hnot
      exact hne (congrArg _ (hstart.eq_of_length (by omega)))
  · exact ⟨picked, hpaths, hpicked.subperm.trans hsubperm, hordered.sublist hpicked,
      fun f hf => hkey f (hpicked.subset hf)⟩
  · exact fun file hfile => clean_content hapart (hshows file hfile)

end

/-! ### Paths that are too long -/

/-- Git shows a binary file everywhere but at one path, where the file is empty. -/
def onlyFile (path : Text) (asked : Text) : Option (List UInt8) := if asked = path then some [] else some [0]

theorem apart_onlyFile (site : Site) (path : Text) : Apart site (onlyFile path) := by
  intro asked raw hshow hbinary u hu q hq a b hab hopening hoccurs
  have hraw : raw = [] := by
    unfold onlyFile at hshow
    split_ifs at hshow
    · exact (Option.some.inj hshow).symm
    · obtain rfl := Option.some.inj hshow
      exact absurd List.mem_cons_self hbinary
  subst hraw
  have hnil : a ++ q = [] := List.infix_nil.mp hoccurs
  exact hopening.before (List.append_eq_nil_iff.mp hnil).1

/-- Where git throws nothing, neither does the loop. -/
theorem readFiles_isSome {showFile : Text → Option (List UInt8)} (htotal : ∀ path, ∃ raw, showFile path = some raw)
    (sensitive : List Text) (keyFiles : List Blob) : ∀ budget, ∃ files,
      readFiles showFile sensitive budget keyFiles = some files := by
  induction keyFiles with
  | nil => exact fun budget => ⟨[], rfl⟩
  | cons f keyFiles ih =>
    intro budget
    obtain ⟨raw, hshow⟩ := htotal f.path
    unfold readFiles
    rw [hshow]
    dsimp only
    split_ifs
    · exact ⟨_, rfl⟩
    · exact ih budget
    · exact ⟨_, rfl⟩
    · obtain ⟨files, hfiles⟩ := ih (budget - (f.path.length +
        min (safeText sensitive raw).length (min MAX_REPOSITORY_FILE_CHARS (budget - f.path.length))))
      exact ⟨_, by rw [hfiles]; rfl⟩

theorem onlyFile_total (path : Text) : ∀ asked, ∃ raw, onlyFile path asked = some raw := by
  intro asked
  unfold onlyFile
  split_ifs
  · exact ⟨_, rfl⟩
  · exact ⟨_, rfl⟩

/-- A file that is reached is reported, when the others are binary. -/
theorem readFiles_onlyFile (sensitive : List Text) {f : Blob} (keyFiles : List Blob) : ∀ budget,
    Reached budget keyFiles f → ∀ files, readFiles (onlyFile f.path) sensitive budget keyFiles = some files →
      ∃ file ∈ files, file.path = f.path := by
  induction keyFiles with
  | nil =>
    rintro budget ⟨before, after, hsplit, -⟩
    simp at hsplit
  | cons g keyFiles ih =>
    rintro budget ⟨before, after, hsplit, hroom⟩ files hread
    have hg : g.path.length < budget := by
      cases before with
      | nil =>
        obtain ⟨rfl, -⟩ := List.cons.inj hsplit
        exact hroom g (List.mem_singleton_self g)
      | cons b before =>
        obtain ⟨rfl, -⟩ := List.cons.inj hsplit
        exact hroom g List.mem_cons_self
    unfold readFiles at hread
    rw [if_neg (not_le.mpr hg)] at hread
    by_cases hsame : g.path = f.path
    · have hshow : onlyFile f.path g.path = some [] := if_pos hsame
      rw [hshow] at hread
      have hcap : min MAX_REPOSITORY_FILE_CHARS (budget - g.path.length) ≠ 0 := by
        have hmax : MAX_REPOSITORY_FILE_CHARS = 16000 := rfl
        omega
      dsimp only at hread
      rw [if_neg List.not_mem_nil, if_neg hcap] at hread
      obtain ⟨rest, -, rfl⟩ := Option.map_eq_some_iff.mp hread
      exact ⟨_, List.mem_cons_self, hsame⟩
    · have hshow : onlyFile f.path g.path = some [0] := if_neg hsame
      rw [hshow] at hread
      dsimp only at hread
      rw [if_pos List.mem_cons_self] at hread
      cases before with
      | nil =>
        obtain ⟨rfl, -⟩ := List.cons.inj hsplit
        exact absurd rfl hsame
      | cons b before =>
        obtain ⟨-, hrest⟩ := List.cons.inj hsplit
        exact ih budget ⟨before, after, hrest, fun c hc => hroom c (List.mem_cons_of_mem _ hc)⟩ files hread

section

variable (localeCompare : Text → Text → Ordering) (site : Site) (rawTree : List UInt8)

theorem report_exists (hblobs : usable (decode rawTree) ≠ []) {showFile : Text → Option (List UInt8)}
    (htotal : ∀ path, ∃ raw, showFile path = some raw) : ∃ value,
      inspect localeCompare (site.git rawTree showFile) site.registry site.repositoryPath site.repositoryId =
        .report value := by
  rw [site.inspect_eq]
  unfold reportOf
  rw [if_neg (List.length_eq_zero_iff.not.mpr hblobs)]
  dsimp only
  obtain ⟨files, hfiles⟩ := readFiles_isSome htotal site.sensitive
    (selectRepositoryKeyFiles localeCompare (usable (decode rawTree)))
    (listPaths MAX_REPOSITORY_SAMPLE_CHARS ((usable (decode rawTree)).take MAX_REPOSITORY_TREE_PATHS)).2
  have hread : readFiles (site.git rawTree showFile).showFile site.sensitive
      (listPaths MAX_REPOSITORY_SAMPLE_CHARS ((usable (decode rawTree)).take MAX_REPOSITORY_TREE_PATHS)).2
      (selectRepositoryKeyFiles localeCompare (usable (decode rawTree))) = some files := hfiles
  rw [hread]
  exact ⟨_, rfl⟩

/-- **When reports are acceptable**: whatever the files contain, exactly when no path is too long. -/
theorem inspect_exact :
    (∀ showFile, Apart site showFile → ∀ value,
      inspect localeCompare (site.git rawTree showFile) site.registry site.repositoryPath site.repositoryId =
        .report value → Meets site showFile (usable (decode rawTree)) value) ↔
      Short localeCompare (usable (decode rawTree)) := by
  refine ⟨fun hmeets start hsampled => ?_, fun hshort showFile hapart value h =>
    report_meets localeCompare site rawTree hshort hapart h⟩
  have hstart : start <+: usable (decode rawTree) := hsampled.first.trans (List.take_prefix _ _)
  refine ⟨fun b hb => ?_, fun f hf => ?_⟩
  · have hblobs : usable (decode rawTree) ≠ [] := List.ne_nil_of_mem (hstart.subset hb)
    obtain ⟨value, hvalue⟩ := report_exists localeCompare site rawTree hblobs (onlyFile_total [])
    have haccepted := (hmeets _ (apart_onlyFile site []) value hvalue).accepted
    obtain ⟨start', files, hsampled', -, rfl⟩ := report_eq localeCompare site rawTree hvalue
    obtain rfl := hsampled'.unique hsampled
    exact (haccepted.tree_paths b.path (List.mem_map_of_mem hb)).max
  · have hkey : f ∈ selectRepositoryKeyFiles localeCompare (usable (decode rawTree)) := by
      obtain ⟨before, after, hsplit, -⟩ := hf
      rw [hsplit]
      exact List.mem_append_right _ List.mem_cons_self
    have hblobs : usable (decode rawTree) ≠ [] :=
      List.ne_nil_of_mem ((keyFiles_spec localeCompare (usable (decode rawTree))).1.subset hkey)
    obtain ⟨value, hvalue⟩ := report_exists localeCompare site rawTree hblobs (onlyFile_total f.path)
    have haccepted := (hmeets _ (apart_onlyFile site f.path) value hvalue).accepted
    obtain ⟨start', files, hsampled', hread, rfl⟩ := report_eq localeCompare site rawTree hvalue
    obtain rfl := hsampled'.unique hsampled
    obtain ⟨file, hfile, hpath⟩ := readFiles_onlyFile site.sensitive _ _ hf files hread
    exact hpath ▸ (haccepted.paths file hfile).max

end

/-- A repository in a workspace. -/
def homeSite : Site where
  registry := ⟨[⟨[unit 'w'], units "/work", [unit 'w']⟩], [⟨[unit 'r'], [unit 'w'], units "/work/r"⟩]⟩
  repositoryPath := fun _ => some (units "/work/r")
  repositoryId := [unit 'r']
  path := units "/work/r"
  repository := ⟨[unit 'r'], [unit 'w'], units "/work/r"⟩
  workspace := ⟨[unit 'w'], units "/work", [unit 'w']⟩
  metadata := ⟨[unit 'm'], List.replicate 40 (unit 'a')⟩
  resolved := rfl
  known := rfl
  owned := rfl
  valid_id := ⟨le_rfl, by decide, fun c hc => Or.inl (List.mem_singleton.mp hc ▸ rfl)⟩
  valid_name := by
    have hlabel : safeLabel [unit 'w'] (baseName (units "/work/r")) = [unit 'w'] := by decide
    rw [hlabel]
    exact ⟨by decide, by decide, by decide, by decide, fun c hc => List.mem_singleton.mp hc ▸ by decide⟩
  valid_branch := ⟨le_rfl, by decide, by decide, by decide, fun c hc => List.mem_singleton.mp hc ▸ by decide⟩
  valid_head := ⟨Or.inl List.length_replicate, fun c hc => Or.inl (List.eq_of_mem_replicate hc ▸ rfl)⟩
  outside := by
    intro place hplace
    rcases List.mem_cons.mp hplace with rfl | hplace
    · exact outside_of_absolute ⟨units "work", rfl⟩
    · obtain rfl := List.mem_singleton.mp hplace
      exact outside_of_absolute ⟨units "work/r", rfl⟩

/-- The line of a file in the form of git, before its path. -/
def linePrefix : Text := units "100644 blob a 5\t"

/-- A tree with one file, whose name has `n` letters. -/
def longTree (n : ℕ) : List UInt8 := linePrefix.map (fun c => UInt8.ofNat c.val) ++ List.replicate n 97

theorem decode_longTree (n : ℕ) : decode (longTree n) = linePrefix ++ List.replicate n (unit 'a') := by
  have hascii : ∀ b ∈ longTree n, b.toNat < 0x80 := by
    intro b hb
    rcases List.mem_append.mp hb with hb | hb
    · have hall : ((linePrefix.map fun c => UInt8.ofNat c.val).all fun b => b.toNat < 0x80) = true := by decide
      simpa using List.all_eq_true.mp hall b hb
    · rw [List.eq_of_mem_replicate hb]
      decide
  rw [decode_ascii _ hascii]
  unfold longTree
  rw [List.map_append, List.map_replicate]
  rfl

theorem matchLine_longTree {path : Text} (h : path ≠ []) :
    matchLine (linePrefix ++ path) = some (some [unit '5'], path) := by
  have hmatch : matchLine (linePrefix ++ path) = if path = [] then none else some (some [unit '5'], path) := rfl
  rw [hmatch, if_neg h]

theorem usable_longTree {n : ℕ} (h : 3 ≤ n) : usable (decode (longTree n)) = [⟨List.replicate n (unit 'a'), 5⟩] := by
  have hne : List.replicate n (unit 'a') ≠ [] := List.ne_nil_of_length_pos (by rw [List.length_replicate]; omega)
  have hnul : (0 : CodeUnit) ∉ linePrefix ++ List.replicate n (unit 'a') := by
    intro hmem
    rcases List.mem_append.mp hmem with hmem | hmem
    · exact absurd hmem (by decide)
    · exact absurd (List.eq_of_mem_replicate hmem) (by decide)
  have hslash : unit '/' ∉ List.replicate n (unit 'a') := fun hmem =>
    absurd (List.eq_of_mem_replicate hmem) (by decide)
  have hsafe : ¬ rejected (List.replicate n (unit 'a')) := by
    rintro (⟨rest, hrest⟩ | hback | ⟨segment, hsegment, hbad⟩)
    · exact hslash (hrest ▸ List.mem_append_left _ (List.mem_singleton_self _))
    · exact absurd (List.eq_of_mem_replicate hback) (by decide)
    · rw [List.splitOn_eq_singleton hslash] at hsegment
      obtain rfl := List.mem_singleton.mp hsegment
      rcases hbad with hbad | hbad | hbad
      · rw [List.length_replicate] at hbad
        omega
      · have hlength := congrArg List.length hbad
        rw [List.length_replicate] at hlength
        have hone : (units ".").length = 1 := by decide
        omega
      · have hlength := congrArg List.length hbad
        rw [List.length_replicate] at hlength
        have htwo : (units "..").length = 2 := by decide
        omega
  have hblob : blobOf (linePrefix ++ List.replicate n (unit 'a')) = some ⟨List.replicate n (unit 'a'), 5⟩ := by
    unfold blobOf
    rw [matchLine_longTree hne]
    dsimp only
    rw [if_neg]
    · rfl
    · rintro (hfinite | hrejected)
      · exact absurd hfinite (by decide)
      · exact hsafe hrejected
  have hlines : [linePrefix ++ List.replicate n (unit 'a')].filter (fun line => line ≠ []) =
      [linePrefix ++ List.replicate n (unit 'a')] := by
    refine List.filter_eq_self.mpr fun line hline => decide_eq_true fun hnil => ?_
    rw [List.mem_singleton.mp hline] at hnil
    exact hne (List.append_eq_nil_iff.mp hnil).2
  rw [decode_longTree]
  unfold usable
  rw [List.splitOn_eq_singleton hnul, hlines, List.filterMap_cons_some hblob, List.filterMap_nil]

/-- **One name that is too long** makes the report unacceptable: the helper lists it, and the schema refuses it. -/
theorem long_name_refused : ∃ value,
    inspect (fun _ _ => .eq) (homeSite.git (longTree 1001) fun _ => some []) homeSite.registry homeSite.repositoryPath
      homeSite.repositoryId = .report value ∧ ¬ value.Accepts := by
  have husable := usable_longTree (show 3 ≤ 1001 by omega)
  have hblobs : usable (decode (longTree 1001)) ≠ [] := husable ▸ List.cons_ne_nil _ _
  obtain ⟨value, hvalue⟩ := report_exists (fun _ _ => .eq) homeSite (longTree 1001) hblobs
    (fun _ => ⟨[], rfl⟩ : ∀ path : Text, ∃ raw, (fun _ => some []) path = some raw)
  refine ⟨value, hvalue, fun haccepts => ?_⟩
  obtain ⟨start, files, hsampled, -, rfl⟩ := report_eq (fun _ _ => .eq) homeSite (longTree 1001) hvalue
  have htake : (usable (decode (longTree 1001))).take MAX_REPOSITORY_TREE_PATHS =
      [⟨List.replicate 1001 (unit 'a'), 5⟩] := by
    rw [husable]
    rfl
  rw [htake] at hsampled
  have hcosts : pathCosts [⟨List.replicate 1001 (unit 'a'), 5⟩] ≤ MAX_REPOSITORY_SAMPLE_CHARS := by
    have hnil : pathCosts [] = 0 := rfl
    rw [pathCosts_cons, List.length_replicate, hnil]
    decide
  have hmem := (hsampled.longest _ (List.prefix_refl _) hcosts).subset (List.mem_singleton_self _)
  have hmax := (haccepts.tree_paths _ (List.mem_map_of_mem hmem)).max
  rw [List.length_replicate] at hmax
  omega

end Norns.Runner.Report
