import Norns.Conversations.Context
import Norns.Lib.OrdMap
import Norns.Lib.Utf8
import Mathlib.Data.List.Perm.Lattice

/-! # The files of a conversation

`conversations/contextAssembler.ts`: the loop of `assemble` that collects the references of the recent messages,
`addReferencedArtifacts`, and the loop that puts the file blocks into the messages. The materials before the messages
and the planning excerpts after them are parameters.

* `minimumFileBlock`, `boundedFileBlock`: the block of a file;
* `addAttachment`: one round of the loop with the running budget;
* `blocks`: the blocks of the files in turn, `sum_blocks`: they keep to the budget;
* `insertFiles_messages`: what the messages become;
* `assemble_exact`: the budget is kept, and the manifest accounts for what is sent, when each file is referenced once. -/

namespace Norns.Conversations.FileContext

open Norns.Lib Norns.Lib.JsonText Norns.Lib.Utf8 Norns.Conversations.Context

def MAX_FILE_CONTEXT_CHARACTERS : ℕ := 50000

def MAX_TOTAL_FILE_CONTEXT_CHARACTERS : ℕ := 120000

/-! ### Attachments -/

structure AttachmentRow where
  id : String
  sha256 : Text
  mime : Text
  original_filename : Text
  extracted_text : Option Text
  extracted_text_sha256 : Option Text
  extraction_truncated : Bool
  deriving DecidableEq

def AttachmentRow.isFile (a : AttachmentRow) : Bool := a.extracted_text.isSome && a.extracted_text_sha256.isSome

/-- The attachments of the project that are not deleted. -/
structure Attachments where
  rows : List AttachmentRow
  ids : (rows.map AttachmentRow.id).Nodup

structure ArtifactRow where
  id : String
  label : Text
  media_type : Text
  content_hash : Text

/-! ### Materials -/

inductive EntryKind
  | prompt | global_rules | project_rules | project_knowledge | project_setup | work_objective | conversation_summary
  | decision | risk | message | artifact | handoff | planning_excerpt | task_package
  deriving DecidableEq, Repr

structure ContextMaterial where
  kind : EntryKind
  ref : String
  content : Text
  contentHash : Option Text := none
  estimatedTokens : Option ℕ := none

def estimateTokens (content : Text) : ℕ := if content.length = 0 then 0 else max 1 ((content.length + 3) / 4)

structure ManifestEntry where
  kind : EntryKind
  ref : String
  content_hash : Text
  estimated_tokens : ℕ

structure Manifest where
  entries : List ManifestEntry
  estimated_tokens : ℕ

section

variable (canonicalSha256 : Text → Text)

def entry (material : ContextMaterial) : ManifestEntry where
  kind := material.kind
  ref := material.ref
  content_hash := material.contentHash.getD (canonicalSha256 material.content)
  estimated_tokens := material.estimatedTokens.getD (estimateTokens material.content)

def manifestOf (materials : List ContextMaterial) : Manifest where
  entries := materials.map (entry canonicalSha256)
  estimated_tokens := (materials.map fun m => m.estimatedTokens.getD (estimateTokens m.content)).sum

end

/-! ### Blocks -/

def fileBlockHeader (a : AttachmentRow) : Text :=
  join (units "\n") ([units "### File: " ++ a.original_filename,
    units "Media type: " ++ a.mime ++ units "; attachment id: " ++ units a.id] ++
    if a.extraction_truncated then [units "The stored extraction was truncated to the safe ingestion limit."] else [])

def omission : Text :=
  units "\n\n[File content omitted because the conversation attachment budget was exhausted]"

def marker : Text := units "\n\n[File context truncated to the conversation limit]"

def minimumFileBlock (a : AttachmentRow) : Text := fileBlockHeader a ++ omission

def boundedFileBlock (a : AttachmentRow) (characterBudget : ℕ) : Text :=
  match a.extracted_text with
  | none => minimumFileBlock a
  | some extracted_text =>
    let header := fileBlockHeader a
    let complete := header ++ units "\n\n" ++ extracted_text
    if complete.length ≤ characterBudget then complete
    else
      let prefixLength := characterBudget - header.length - 2 - marker.length
      if prefixLength = 0 then minimumFileBlock a
      else header ++ units "\n\n" ++ extracted_text.take prefixLength ++ marker

/-! ### The running budget -/

structure FileState where
  materials : List ContextMaterial
  fileContexts : OrdMap String Text
  rendered : List Text
  remainingFileCharacters : ℤ
  seenFiles : ℕ

/-- The characters for one file, when so many are reserved for the files after it. -/
def availableForFile (a : AttachmentRow) (remaining : ℤ) (reserved : ℕ) : ℕ :=
  min MAX_FILE_CONTEXT_CHARACTERS (max ((minimumFileBlock a).length : ℤ) (remaining - reserved)).toNat

def reservedFor (files : List AttachmentRow) : ℕ := (files.map fun a => (minimumFileBlock a).length).sum

/-- One round of the loop over the attachments; `files` are the ones with text. -/
def addAttachment (files : List AttachmentRow) (s : FileState) (a : AttachmentRow) : FileState :=
  if a.isFile then
    let content := boundedFileBlock a
      (availableForFile a s.remainingFileCharacters (reservedFor (files.drop (s.seenFiles + 1))))
    { s with
      materials := s.materials ++ [{ kind := .artifact, ref := a.id, content }]
      fileContexts := s.fileContexts.set a.id content
      remainingFileCharacters := s.remainingFileCharacters - content.length
      seenFiles := s.seenFiles + 1 }
  else
    let attachmentKind := if (units "image/").isPrefixOf a.mime then units "Image attachment" else units "Binary attachment"
    let content := attachmentKind ++ units ": " ++ a.original_filename ++ units " (" ++ a.mime ++ units "), id=" ++ units a.id
    { s with
      materials := s.materials ++
        [{ kind := .artifact, ref := a.id, content, contentHash := some a.sha256, estimatedTokens := some 0 }]
      rendered := s.rendered ++ [units "- " ++ content] }

def addArtifact (s : List ContextMaterial × List Text) (a : ArtifactRow) : List ContextMaterial × List Text :=
  let content := a.label ++ units " (" ++ a.media_type ++ units "), id=" ++ units a.id
  (s.1 ++ [{ kind := .artifact, ref := a.id, content, contentHash := some a.content_hash }], s.2 ++ [units "- " ++ content])

section

variable (live : Attachments) (artifacts : List ArtifactRow)

/-- `attachmentsById.get` -/
def attachmentOf (id : String) : Option AttachmentRow := live.rows.find? fun a => a.id = id

def orderedAttachments (attachmentIds : List String) : List AttachmentRow := attachmentIds.filterMap (attachmentOf live)

/-- What a call adds: the materials, the section, and the blocks of the files. -/
structure Referenced where
  materials : List ContextMaterial
  sections : List Text
  fileContexts : OrdMap String Text

def addReferencedArtifacts (attachmentIds artifactIds : List String) : Referenced :=
  let ordered := orderedAttachments live attachmentIds
  let s := ordered.foldl (addAttachment (ordered.filter AttachmentRow.isFile))
    ⟨[], OrdMap.empty, [], MAX_TOTAL_FILE_CONTEXT_CHARACTERS, 0⟩
  let added := (artifacts.filter fun a => a.id ∈ artifactIds).foldl addArtifact (s.materials, s.rendered)
  { materials := added.1
    sections := if added.2 = [] then [] else [units "## Referenced artifacts\n" ++ join (units "\n") added.2]
    fileContexts := s.fileContexts }

end

/-! ### Messages -/

/-- The content of a message: a text, or a list of texts. -/
inductive Content
  | text (content : Text)
  | parts (texts : List Text)

structure Message where
  role : V2WorkMessageRole
  content : Content

structure Gathered where
  materials : List ContextMaterial := []
  messages : List Message := []
  attachmentIds : List String := []
  /-- The index of a message and its references. -/
  messageAttachmentIds : List (ℕ × List String) := []
  artifactIds : List String := []

def attachmentRefs (row : WorkMessage) : List String :=
  row.parts.filterMap fun part =>
    match part with
    | .attachment attachment_id _ _ => some attachment_id
    | _ => none

def artifactRefs (row : WorkMessage) : List String :=
  row.parts.filterMap fun part =>
    match part with
    | .artifact artifact_id _ _ => some artifact_id
    | _ => none

/-- One round of the loop over the recent messages. -/
def gatherRow (s : Gathered) (row : WorkMessage) : Gathered :=
  let content := visibleText row.parts
  if content = "" then s
  else
    let s := { s with
      materials := s.materials ++ [{ kind := .message, ref := row.id, content := units content }]
      attachmentIds := s.attachmentIds ++ attachmentRefs row
      artifactIds := s.artifactIds ++ artifactRefs row }
    if row.role = .system then s
    else
      { s with
        messages := s.messages ++ [⟨row.role, .text (units content)⟩]
        messageAttachmentIds := s.messageAttachmentIds ++
          if attachmentRefs row = [] then [] else [(s.messages.length, attachmentRefs row)] }

section

variable (fileContexts : OrdMap String Text)

def fileBlocks (attachmentIds : List String) : List Text :=
  attachmentIds.flatMap fun id =>
    match fileContexts.get? id with
    | some content => if content = [] then [] else [content]
    | none => []

def Message.add (message : Message) (fileContent : Text) : Message :=
  match message.content with
  | .text content => { message with content := .text (content ++ units "\n\n" ++ fileContent) }
  | .parts texts => { message with content := .parts (texts ++ [fileContent]) }

/-- One round of the loop that inserts the blocks. -/
def insertFiles (messages : List Message) (referenced : ℕ × List String) : List Message :=
  let blocks := fileBlocks fileContexts referenced.2
  if blocks = [] then messages
  else messages.modify referenced.1 fun message => message.add (join (units "\n") blocks)

end

structure Assembly where
  materials : List ContextMaterial
  manifest : Manifest
  messages : List Message
  sections : List Text
  referenced_attachment_ids : List String

section

variable (canonicalSha256 : Text → Text) (before excerpts : List ContextMaterial) (live : Attachments)
  (artifacts : List ArtifactRow) (recent : List WorkMessage)

def gather : Gathered := recent.foldl gatherRow {}

/-- What the assembly adds for the references of the messages. -/
def referenced : Referenced :=
  addReferencedArtifacts live artifacts (gather recent).attachmentIds.eraseDups (gather recent).artifactIds.eraseDups

def assemble : Assembly :=
  let gathered := gather recent
  let added := referenced live artifacts recent
  let materials := before ++ gathered.materials ++ excerpts ++ added.materials
  { materials
    manifest := manifestOf canonicalSha256 materials
    messages := gathered.messageAttachmentIds.foldl (insertFiles added.fileContexts) gathered.messages
    sections := added.sections
    referenced_attachment_ids := gathered.attachmentIds.eraseDups }

end

/-! ### The block of a file -/

/-- What a block may be: all of the text, a prefix with the marker, or the omission marker. -/
inductive Block (a : AttachmentRow) : Text → Prop
  | complete {extracted : Text} (h : a.extracted_text = some extracted) :
    Block a (fileBlockHeader a ++ units "\n\n" ++ extracted)
  | cut {extracted start : Text} (h : a.extracted_text = some extracted) (hstart : start <+: extracted) :
    Block a (fileBlockHeader a ++ units "\n\n" ++ start ++ marker)
  | omitted : Block a (minimumFileBlock a)

section

variable (a : AttachmentRow) (characterBudget : ℕ)

theorem boundedFileBlock_block : Block a (boundedFileBlock a characterBudget) := by
  unfold boundedFileBlock
  split
  · exact .omitted
  · rename_i extracted hextracted
    dsimp only
    split_ifs
    · exact .complete hextracted
    · exact .omitted
    · exact .cut hextracted (List.take_prefix _ _)

theorem boundedFileBlock_length :
    (boundedFileBlock a characterBudget).length ≤ max characterBudget (minimumFileBlock a).length := by
  unfold boundedFileBlock
  split
  · exact le_max_right _ _
  · dsimp only
    split_ifs with hcomplete hprefix
    · exact hcomplete.trans (le_max_left _ _)
    · exact le_max_right _ _
    · have hbreak : (units "\n\n").length = 2 := by decide
      have htake := List.length_take_le (characterBudget - (fileBlockHeader a).length - 2 - marker.length) ‹Text›
      simp only [List.length_append, hbreak]
      omega

/-- A text that is too long is cut so that its block has the length of the budget. -/
theorem boundedFileBlock_long {a : AttachmentRow} {extracted : Text} {characterBudget : ℕ}
    (h : a.extracted_text = some extracted) (hlong : characterBudget < (fileBlockHeader a).length + 2 + extracted.length)
    (hroom : (fileBlockHeader a).length + 2 + marker.length < characterBudget) :
    (boundedFileBlock a characterBudget).length = characterBudget := by
  have hbreak : (units "\n\n").length = 2 := by decide
  unfold boundedFileBlock
  rw [h]
  dsimp only
  rw [if_neg (by simp only [List.length_append, hbreak]; omega), if_neg (by omega)]
  simp only [List.length_append, List.length_take, hbreak]
  omega

theorem fileBlockHeader_ne_nil : fileBlockHeader a ≠ [] := by
  unfold fileBlockHeader join
  have hhead : units "### File: " ≠ [] := by decide
  obtain ⟨c, rest, hcons⟩ := List.exists_cons_of_ne_nil hhead
  rw [hcons]
  simp [List.intercalate]

theorem Block.ne_nil {a : AttachmentRow} {t : Text} (h : Block a t) : t ≠ [] := by
  have hheader := fileBlockHeader_ne_nil a
  cases h with
  | complete => simp [hheader]
  | cut => simp [hheader]
  | omitted => simp [minimumFileBlock, hheader]

end

/-! ### The blocks in turn -/

/-- The blocks of some files, each in what is left by the ones before it. -/
def blocks (remaining : ℤ) : List AttachmentRow → List (AttachmentRow × Text)
  | [] => []
  | a :: rest =>
    let block := boundedFileBlock a (availableForFile a remaining (reservedFor rest))
    (a, block) :: blocks (remaining - block.length) rest

theorem map_fst_blocks (files : List AttachmentRow) : ∀ remaining : ℤ, (blocks remaining files).map Prod.fst = files := by
  induction files with
  | nil => exact fun _ => rfl
  | cons a rest ih =>
    intro remaining
    rw [blocks, List.map_cons, ih]

/-- Each block is one of its file, and not longer than it may be. -/
theorem mem_blocks {files : List AttachmentRow} {b : AttachmentRow × Text} : ∀ {remaining : ℤ}, b ∈ blocks remaining files →
    Block b.1 b.2 ∧ b.2.length ≤ max MAX_FILE_CONTEXT_CHARACTERS (minimumFileBlock b.1).length := by
  induction files with
  | nil =>
    intro remaining hb
    cases hb
  | cons a rest ih =>
    intro remaining hb
    rw [blocks] at hb
    rcases List.mem_cons.mp hb with rfl | hrest
    · refine ⟨boundedFileBlock_block _ _, (boundedFileBlock_length _ _).trans ?_⟩
      have havailable : availableForFile a remaining (reservedFor rest) ≤ MAX_FILE_CONTEXT_CHARACTERS := min_le_left _ _
      exact max_le_max_right _ havailable
    · exact ih hrest

/-- **The running budget**: blocks whose minima fit keep to it. -/
theorem sum_blocks (files : List AttachmentRow) : ∀ {remaining : ℤ}, (reservedFor files : ℤ) ≤ remaining →
    ((((blocks remaining files).map fun b => b.2.length).sum : ℕ) : ℤ) ≤ remaining := by
  induction files with
  | nil =>
    intro remaining h
    exact h
  | cons a rest ih =>
    intro remaining h
    have hreserved : reservedFor (a :: rest) = (minimumFileBlock a).length + reservedFor rest := by
      simp [reservedFor]
    have hlength := boundedFileBlock_length a (availableForFile a remaining (reservedFor rest))
    have havailable : availableForFile a remaining (reservedFor rest) ≤
        (max ((minimumFileBlock a).length : ℤ) (remaining - reservedFor rest)).toNat := min_le_right _ _
    have hrest : (reservedFor rest : ℤ) ≤
        remaining - (boundedFileBlock a (availableForFile a remaining (reservedFor rest))).length := by
      omega
    have hsum := ih hrest
    rw [blocks]
    simp only [List.map_cons, List.sum_cons]
    omega

/-! ### The loop over the attachments -/

/-- The reference and the block. -/
def sentBlock (b : AttachmentRow × Text) : String × Text := (b.1.id, b.2)

/-- The files that some materials account for: reference and content. -/
def accountedFiles (materials : List ContextMaterial) : List (String × Text) :=
  (materials.filter fun m => m.contentHash.isNone).map fun m => (m.ref, m.content)

/-- The block of a file in a round of the loop. -/
def roundBlock (files : List AttachmentRow) (s : FileState) (a : AttachmentRow) : Text :=
  boundedFileBlock a (availableForFile a s.remainingFileCharacters (reservedFor (files.drop (s.seenFiles + 1))))

theorem addAttachment_file (files : List AttachmentRow) (s : FileState) {a : AttachmentRow} (h : a.isFile = true) :
    (addAttachment files s a).seenFiles = s.seenFiles + 1 ∧
      (addAttachment files s a).remainingFileCharacters =
        s.remainingFileCharacters - (roundBlock files s a).length ∧
      (addAttachment files s a).fileContexts = s.fileContexts.set a.id (roundBlock files s a) ∧
      accountedFiles (addAttachment files s a).materials =
        accountedFiles s.materials ++ [(a.id, roundBlock files s a)] := by
  unfold addAttachment
  rw [if_pos h]
  refine ⟨rfl, rfl, rfl, ?_⟩
  simp [accountedFiles, roundBlock]

theorem addAttachment_other (files : List AttachmentRow) (s : FileState) {a : AttachmentRow} (h : ¬ a.isFile = true) :
    (addAttachment files s a).seenFiles = s.seenFiles ∧
      (addAttachment files s a).remainingFileCharacters = s.remainingFileCharacters ∧
      (addAttachment files s a).fileContexts = s.fileContexts ∧
      accountedFiles (addAttachment files s a).materials = accountedFiles s.materials := by
  unfold addAttachment
  rw [if_neg h]
  refine ⟨rfl, rfl, rfl, ?_⟩
  simp [accountedFiles]

/-- **The loop over the attachments**: both the map and the materials get the blocks in turn. -/
theorem foldl_addAttachment (files : List AttachmentRow) (ordered : List AttachmentRow) : ∀ {s : FileState},
    files.drop s.seenFiles = ordered.filter AttachmentRow.isFile → (ordered.map AttachmentRow.id).Nodup →
    (∀ a ∈ ordered, a.id ∉ s.fileContexts.keys) →
    (ordered.foldl (addAttachment files) s).fileContexts.entries = s.fileContexts.entries ++
        (blocks s.remainingFileCharacters (ordered.filter AttachmentRow.isFile)).map sentBlock ∧
      accountedFiles (ordered.foldl (addAttachment files) s).materials = accountedFiles s.materials ++
        (blocks s.remainingFileCharacters (ordered.filter AttachmentRow.isFile)).map sentBlock := by
  induction ordered with
  | nil =>
    intro s _ _ _
    simp [blocks]
  | cons a rest ih =>
    intro s hdrop hids hnew
    rw [List.map_cons, List.nodup_cons] at hids
    obtain ⟨hfirst, hids⟩ := hids
    rw [List.foldl_cons]
    by_cases hfile : a.isFile = true
    · rw [List.filter_cons_of_pos hfile] at hdrop ⊢
      have hrest : files.drop (s.seenFiles + 1) = rest.filter AttachmentRow.isFile := by
        rw [← List.tail_drop, hdrop, List.tail_cons]
      have hblock : boundedFileBlock a (availableForFile a s.remainingFileCharacters
          (reservedFor (rest.filter AttachmentRow.isFile))) = roundBlock files s a := by
        rw [roundBlock, hrest]
      obtain ⟨hseen, hremaining, hcontexts, hmaterials⟩ := addAttachment_file files s hfile
      have hset : (s.fileContexts.set a.id (roundBlock files s a)).entries =
          s.fileContexts.entries ++ [(a.id, roundBlock files s a)] :=
        Assoc.set_of_notMem (hnew a List.mem_cons_self)
      have hnew' : ∀ b ∈ rest, b.id ∉ (addAttachment files s a).fileContexts.keys := by
        intro b hb hkey
        rw [hcontexts] at hkey
        rcases OrdMap.mem_keys_set.mp hkey with heq | hold
        · exact hfirst (heq ▸ List.mem_map_of_mem hb)
        · exact hnew b (List.mem_cons_of_mem _ hb) hold
      obtain ⟨hentries, haccounted⟩ := ih (by rw [hseen]; exact hrest) hids hnew'
      rw [hentries, haccounted, hmaterials, hremaining, hcontexts, hset, blocks, hblock]
      simp [sentBlock]
    · rw [List.filter_cons_of_neg hfile] at hdrop ⊢
      obtain ⟨hseen, hremaining, hcontexts, hmaterials⟩ := addAttachment_other files s hfile
      have hnew' : ∀ b ∈ rest, b.id ∉ (addAttachment files s a).fileContexts.keys := by
        rw [hcontexts]
        exact fun b hb => hnew b (List.mem_cons_of_mem _ hb)
      obtain ⟨hentries, haccounted⟩ := ih (by rw [hseen]; exact hdrop) hids hnew'
      rw [hentries, haccounted, hmaterials, hremaining, hcontexts]
      exact ⟨rfl, rfl⟩

/-! ### The messages -/

/-- The rows whose messages are assembled or accounted for. -/
def visibleRows (recent : List WorkMessage) : List WorkMessage := recent.filter fun row => visibleText row.parts ≠ ""

def shownRows (recent : List WorkMessage) : List WorkMessage := recent.filter fun row => row.shown

/-- The references of all the rows. -/
def allRefs (recent : List WorkMessage) : List String := (visibleRows recent).flatMap attachmentRefs

/-- The references of the rows that become messages. -/
def shownRefs (recent : List WorkMessage) : List String := (shownRows recent).flatMap attachmentRefs

def Message.of (row : WorkMessage) : Message := ⟨row.role, .text (units (visibleText row.parts))⟩

/-- A message with some blocks. -/
def Message.withBlocks (message : Message) (blocks : List Text) : Message :=
  if blocks = [] then message else message.add (join (units "\n") blocks)

theorem gather_concat (rows : List WorkMessage) (row : WorkMessage) :
    gather (rows ++ [row]) = gatherRow (gather rows) row := List.foldl_concat ..

theorem gatherRow_attachmentIds (s : Gathered) (row : WorkMessage) : (gatherRow s row).attachmentIds =
    s.attachmentIds ++ if visibleText row.parts = "" then [] else attachmentRefs row := by
  unfold gatherRow
  dsimp only
  split_ifs
  · exact (List.append_nil _).symm
  · rfl
  · rfl
  · rfl

theorem gather_attachmentIds (recent : List WorkMessage) : (gather recent).attachmentIds = allRefs recent := by
  induction recent using List.reverseRecOn with
  | nil => rfl
  | append_singleton rows row ih =>
    rw [gather_concat, gatherRow_attachmentIds, ih]
    unfold allRefs visibleRows
    rw [List.filter_append, List.flatMap_append]
    by_cases hcontent : visibleText row.parts = ""
    · simp [hcontent]
    · simp [hcontent]

section

variable (fileContexts : OrdMap String Text)

theorem insertFiles_length (messages : List Message) (r : ℕ × List String) :
    (insertFiles fileContexts messages r).length = messages.length := by
  unfold insertFiles
  dsimp only
  split_ifs
  · rfl
  · exact List.length_modify _ _ _

theorem insertFiles_append {messages : List Message} {r : ℕ × List String} (h : r.1 < messages.length)
    (message : Message) :
    insertFiles fileContexts (messages ++ [message]) r = insertFiles fileContexts messages r ++ [message] := by
  unfold insertFiles
  dsimp only
  split_ifs
  · rfl
  · rw [List.modify_eq_take_drop, List.modify_eq_take_drop, List.take_append_of_le_length h.le,
      List.drop_append_of_le_length h.le]
    obtain ⟨m, rest, hdrop⟩ := List.exists_cons_of_ne_nil (List.drop_eq_nil_iff.not.mpr (not_le.mpr h))
    rw [hdrop]
    simp

theorem insertFiles_last (messages : List Message) (message : Message) (ids : List String) :
    insertFiles fileContexts (messages ++ [message]) (messages.length, ids) =
      messages ++ [message.withBlocks (fileBlocks fileContexts ids)] := by
  unfold insertFiles Message.withBlocks
  dsimp only
  split_ifs
  · rfl
  · rw [List.modify_eq_take_drop]
    simp

theorem foldl_insertFiles_length (refs : List (ℕ × List String)) : ∀ messages : List Message,
    (refs.foldl (insertFiles fileContexts) messages).length = messages.length := by
  induction refs with
  | nil => exact fun _ => rfl
  | cons r refs ih =>
    intro messages
    rw [List.foldl_cons, ih, insertFiles_length]

theorem foldl_insertFiles_append {refs : List (ℕ × List String)} : ∀ {messages : List Message},
    (∀ r ∈ refs, r.1 < messages.length) → ∀ message,
    refs.foldl (insertFiles fileContexts) (messages ++ [message]) =
      refs.foldl (insertFiles fileContexts) messages ++ [message] := by
  induction refs with
  | nil => exact fun _ _ => rfl
  | cons r refs ih =>
    intro messages h message
    rw [List.foldl_cons, List.foldl_cons, insertFiles_append fileContexts (h r List.mem_cons_self)]
    refine ih (fun r' hr' => ?_) message
    rw [insertFiles_length]
    exact h r' (List.mem_cons_of_mem _ hr')

/-- **The messages**: each row that is shown, with the blocks of its references. -/
theorem insertFiles_messages (recent : List WorkMessage) :
    (∀ r ∈ (gather recent).messageAttachmentIds, r.1 < (gather recent).messages.length) ∧
      (gather recent).messageAttachmentIds.foldl (insertFiles fileContexts) (gather recent).messages =
        (shownRows recent).map fun row => (Message.of row).withBlocks (fileBlocks fileContexts (attachmentRefs row)) := by
  induction recent using List.reverseRecOn with
  | nil => exact ⟨fun r hr => absurd hr List.not_mem_nil, rfl⟩
  | append_singleton rows row ih =>
    obtain ⟨hindex, hmessages⟩ := ih
    rw [gather_concat]
    by_cases hshown : row.shown
    · obtain ⟨hcontent, hrole⟩ := hshown
      have hrow : shownRows (rows ++ [row]) = shownRows rows ++ [row] := by
        simp [shownRows, WorkMessage.shown, hcontent, hrole]
      unfold gatherRow
      simp only [if_neg hcontent, if_neg hrole]
      refine ⟨?_, ?_⟩
      · intro r hr
        rw [List.length_append, List.length_singleton]
        rcases List.mem_append.mp hr with hold | hlast
        · exact Nat.lt_succ_of_lt (hindex r hold)
        · split_ifs at hlast
          · cases hlast
          · rw [List.mem_singleton.mp hlast]
            exact Nat.lt_succ_self _
      · have hlength := foldl_insertFiles_length fileContexts (gather rows).messageAttachmentIds (gather rows).messages
        rw [List.foldl_append, foldl_insertFiles_append fileContexts hindex, hrow, List.map_append, ← hmessages]
        by_cases hrefs : attachmentRefs row = []
        · rw [if_pos hrefs, List.foldl_nil, List.map_singleton, hrefs]
          rfl
        · rw [if_neg hrefs, List.foldl_cons, List.foldl_nil, ← hlength, insertFiles_last]
          rfl
    · have hrow : shownRows (rows ++ [row]) = shownRows rows := by
        simp [shownRows, hshown]
      have hsame : (gatherRow (gather rows) row).messages = (gather rows).messages ∧
          (gatherRow (gather rows) row).messageAttachmentIds = (gather rows).messageAttachmentIds := by
        unfold gatherRow
        by_cases hcontent : visibleText row.parts = ""
        · dsimp only
          rw [if_pos hcontent]
          exact ⟨rfl, rfl⟩
        · have hrole : row.role = .system := by
            by_contra hrole
            exact hshown ⟨hcontent, hrole⟩
          dsimp only
          rw [if_neg hcontent, if_pos hrole]
          exact ⟨rfl, rfl⟩
      rw [hsame.1, hsame.2, hrow]
      exact ⟨hindex, hmessages⟩

end

/-! ### What is sent and what is accounted for -/

section

variable (live : Attachments) (recent : List WorkMessage)

/-- The file that an id refers to, if it is one. -/
def isFileRef (id : String) : Bool := (attachmentOf live id).any AttachmentRow.isFile

/-- The files that are referenced. -/
def referencedFiles : List AttachmentRow := live.rows.filter fun a => a.isFile && decide (a.id ∈ allRefs recent)

/-- Each file that is referenced is so once by the messages that are sent. -/
def FilesOnce : Prop :=
  ((shownRefs recent).filter (isFileRef live)).Nodup ∧
    ∀ id ∈ allRefs recent, isFileRef live id = true → id ∈ shownRefs recent

theorem attachmentOf_iff {id : String} {a : AttachmentRow} :
    attachmentOf live id = some a ↔ a ∈ live.rows ∧ a.id = id := by
  constructor
  · intro h
    exact ⟨List.mem_of_find?_eq_some h, by simpa using List.find?_some h⟩
  · rintro ⟨hmem, rfl⟩
    obtain ⟨b, hb⟩ : ∃ b, attachmentOf live a.id = some b :=
      Option.isSome_iff_exists.mp (List.find?_isSome.mpr ⟨a, hmem, by simp⟩)
    have hid : b.id = a.id := by simpa using List.find?_some hb
    have hbmem : b ∈ live.rows := List.mem_of_find?_eq_some hb
    rw [hb, List.inj_on_of_nodup_map live.ids hbmem hmem hid]

theorem isFileRef_iff {id : String} : isFileRef live id = true ↔ ∃ a ∈ live.rows, a.isFile = true ∧ a.id = id := by
  unfold isFileRef
  rw [Option.any_eq_true]
  constructor
  · rintro ⟨a, ha, hfile⟩
    obtain ⟨hmem, hid⟩ := (attachmentOf_iff live).mp ha
    exact ⟨a, hmem, hfile, hid⟩
  · rintro ⟨a, hmem, hfile, hid⟩
    exact ⟨a, (attachmentOf_iff live).mpr ⟨hmem, hid⟩, hfile⟩

/-- The attachments in the order of the references have their ids. -/
theorem map_id_ordered (ids : List String) : (orderedAttachments live ids).map AttachmentRow.id =
    ids.filter fun id => (attachmentOf live id).isSome := by
  unfold orderedAttachments
  induction ids with
  | nil => rfl
  | cons id ids ih =>
    rcases ha : attachmentOf live id with _ | a
    · rw [List.filterMap_cons_none ha, ih, List.filter_cons_of_neg (by simp [ha])]
    · rw [List.filterMap_cons_some ha, List.map_cons, ih, List.filter_cons_of_pos (by simp [ha]),
        ((attachmentOf_iff live).mp ha).2]

theorem ordered_ids_nodup : ((orderedAttachments live (allRefs recent).eraseDups).map AttachmentRow.id).Nodup := by
  rw [map_id_ordered]
  exact (nodup_eraseDups _).filter _

/-- The files in their order are the referenced ones. -/
theorem ordered_perm :
    ((orderedAttachments live (allRefs recent).eraseDups).filter AttachmentRow.isFile).Perm (referencedFiles live recent) := by
  refine (List.perm_ext_iff_of_nodup ?_ ?_).mpr ?_
  · exact (List.Nodup.of_map _ (ordered_ids_nodup live recent)).filter _
  · exact (List.Nodup.of_map _ live.ids).filter _
  · intro a
    simp only [referencedFiles, orderedAttachments, List.mem_filter, List.mem_filterMap, List.mem_eraseDups,
      attachmentOf_iff, Bool.and_eq_true, decide_eq_true_eq]
    constructor
    · rintro ⟨⟨id, hid, hmem, rfl⟩, hfile⟩
      exact ⟨hmem, hfile, hid⟩
    · rintro ⟨hmem, hfile, hid⟩
      exact ⟨⟨a.id, hid, hmem, rfl⟩, hfile⟩

variable (artifacts : List ArtifactRow)

/-- The files with their blocks, as the loop makes them. -/
def madeBlocks : List (AttachmentRow × Text) :=
  blocks MAX_TOTAL_FILE_CONTEXT_CHARACTERS
    ((orderedAttachments live (allRefs recent).eraseDups).filter AttachmentRow.isFile)

theorem accountedFiles_addArtifacts (artifacts : List ArtifactRow) : ∀ s : List ContextMaterial × List Text,
    accountedFiles (artifacts.foldl addArtifact s).1 = accountedFiles s.1 := by
  induction artifacts with
  | nil => exact fun _ => rfl
  | cons a artifacts ih =>
    intro s
    rw [List.foldl_cons, ih]
    simp [addArtifact, accountedFiles]

theorem referenced_blocks :
    (referenced live artifacts recent).fileContexts.entries = (madeBlocks live recent).map sentBlock ∧
      accountedFiles (referenced live artifacts recent).materials = (madeBlocks live recent).map sentBlock := by
  have hloop := foldl_addAttachment
    ((orderedAttachments live (allRefs recent).eraseDups).filter AttachmentRow.isFile)
    (orderedAttachments live (allRefs recent).eraseDups)
    (s := ⟨[], OrdMap.empty, [], MAX_TOTAL_FILE_CONTEXT_CHARACTERS, 0⟩) rfl (ordered_ids_nodup live recent)
    (fun a _ => List.not_mem_nil)
  unfold referenced addReferencedArtifacts
  rw [gather_attachmentIds]
  dsimp only
  rw [accountedFiles_addArtifacts]
  exact hloop

/-- The blocks that are sent for the references of a row. -/
def sentOf (row : WorkMessage) : List (String × Text) :=
  (attachmentRefs row).filterMap fun id => ((referenced live artifacts recent).fileContexts.get? id).map fun t => (id, t)

/-- All blocks that are sent: reference and block. -/
def sent : List (String × Text) := (shownRows recent).flatMap (sentOf live recent artifacts)

/-- What the assembly should do with the files. -/
structure Budgeted (canonicalSha256 : Text → Text) (before excerpts : List ContextMaterial) : Prop where
  messages : (assemble canonicalSha256 before excerpts live artifacts recent).messages =
    (shownRows recent).map fun row => (Message.of row).withBlocks ((sentOf live recent artifacts row).map Prod.snd)
  manifest : (assemble canonicalSha256 before excerpts live artifacts recent).manifest.entries =
    (before ++ (gather recent).materials ++ excerpts ++ (referenced live artifacts recent).materials).map
      (entry canonicalSha256)
  total : reservedFor (referencedFiles live recent) ≤ MAX_TOTAL_FILE_CONTEXT_CHARACTERS →
    ((sent live recent artifacts).map fun b => b.2.length).sum ≤ MAX_TOTAL_FILE_CONTEXT_CHARACTERS
  block : ∀ b ∈ sent live recent artifacts, ∃ a ∈ live.rows, a.id = b.1 ∧ a.isFile = true ∧ Block a b.2 ∧
    b.2.length ≤ max MAX_FILE_CONTEXT_CHARACTERS (minimumFileBlock a).length
  present : ∀ a ∈ referencedFiles live recent, ∃ t, (a.id, t) ∈ sent live recent artifacts
  /-- What is sent is what the entries of the manifest account for. -/
  accounted : (sent live recent artifacts).Perm (accountedFiles (referenced live artifacts recent).materials)

/-! ### The map of the blocks -/

/-- The block of an id. -/
def blockOf (id : String) : Option Text := (referenced live artifacts recent).fileContexts.get? id

theorem blockOf_iff {id : String} {t : Text} :
    blockOf live recent artifacts id = some t ↔ ∃ a, (a, t) ∈ madeBlocks live recent ∧ a.id = id := by
  unfold blockOf
  rw [← OrdMap.mem_entries, (referenced_blocks live recent artifacts).1, List.mem_map]
  constructor
  · rintro ⟨⟨a, t'⟩, hmem, heq⟩
    obtain ⟨rfl, rfl⟩ := Prod.mk.inj heq
    exact ⟨a, hmem, rfl⟩
  · rintro ⟨a, hmem, rfl⟩
    exact ⟨(a, t), hmem, rfl⟩

theorem madeBlocks_perm : ((madeBlocks live recent).map Prod.fst).Perm (referencedFiles live recent) := by
  unfold madeBlocks
  rw [map_fst_blocks]
  exact ordered_perm live recent

theorem blockOf_isSome {id : String} : (∃ t, blockOf live recent artifacts id = some t) ↔
    id ∈ allRefs recent ∧ isFileRef live id = true := by
  have hfiles : (∃ t, blockOf live recent artifacts id = some t) ↔ ∃ a ∈ referencedFiles live recent, a.id = id := by
    simp only [blockOf_iff, ← (madeBlocks_perm live recent).mem_iff, List.mem_map]
    constructor
    · rintro ⟨t, a, hmem, hid⟩
      exact ⟨a, ⟨(a, t), hmem, rfl⟩, hid⟩
    · rintro ⟨a, ⟨⟨b, t⟩, hmem, rfl⟩, hid⟩
      exact ⟨t, b, hmem, hid⟩
  rw [hfiles, isFileRef_iff]
  unfold referencedFiles
  constructor
  · rintro ⟨a, ha, rfl⟩
    obtain ⟨hmem, hfile⟩ := List.mem_filter.mp ha
    rw [Bool.and_eq_true, decide_eq_true_eq] at hfile
    exact ⟨hfile.2, a, hmem, hfile.1, rfl⟩
  · rintro ⟨hid, a, hmem, hfile, rfl⟩
    exact ⟨a, List.mem_filter.mpr ⟨hmem, by simp [hfile, hid]⟩, rfl⟩

theorem mem_sent {id : String} {t : Text} : (id, t) ∈ sent live recent artifacts ↔
    id ∈ shownRefs recent ∧ blockOf live recent artifacts id = some t := by
  simp only [sent, sentOf, shownRefs, List.mem_flatMap, List.mem_filterMap, Option.map_eq_some_iff]
  constructor
  · rintro ⟨row, hrow, id', hid, t', ht, heq⟩
    obtain ⟨rfl, rfl⟩ := Prod.mk.inj heq
    exact ⟨⟨row, hrow, hid⟩, ht⟩
  · rintro ⟨⟨row, hrow, hid⟩, ht⟩
    exact ⟨row, hrow, id, hid, t, ht, rfl⟩

theorem shownRefs_subset {id : String} (h : id ∈ shownRefs recent) : id ∈ allRefs recent := by
  obtain ⟨row, hrow, hid⟩ := List.mem_flatMap.mp h
  obtain ⟨hmem, hshown⟩ := List.mem_filter.mp hrow
  refine List.mem_flatMap.mpr ⟨row, List.mem_filter.mpr ⟨hmem, ?_⟩, hid⟩
  exact decide_eq_true (of_decide_eq_true hshown).1

/-- The ids of what is sent are the references to files, as often as they are made. -/
theorem map_fst_sent : (sent live recent artifacts).map Prod.fst = (shownRefs recent).filter (isFileRef live) := by
  have hfst : ∀ ids : List String, (ids.filterMap fun id =>
      (blockOf live recent artifacts id).map fun t => (id, t)).map Prod.fst =
        ids.filter fun id => (blockOf live recent artifacts id).isSome := by
    intro ids
    induction ids with
    | nil => rfl
    | cons id ids ih =>
      rcases hblock : blockOf live recent artifacts id with _ | t
      · rw [List.filterMap_cons_none (by rw [hblock]; rfl), ih, List.filter_cons_of_neg (by simp [hblock])]
      · rw [List.filterMap_cons_some (by rw [hblock]; rfl), List.map_cons, ih,
          List.filter_cons_of_pos (by simp [hblock])]
  have hsent : sent live recent artifacts = (shownRefs recent).filterMap fun id =>
      (blockOf live recent artifacts id).map fun t => (id, t) := by
    unfold shownRefs
    rw [List.filterMap_flatMap]
    rfl
  rw [hsent, hfst]
  refine List.filter_congr fun id hid => ?_
  rw [Bool.eq_iff_iff, Option.isSome_iff_exists, blockOf_isSome]
  exact and_iff_right (shownRefs_subset recent hid)

/-- **Accounted for**: what is sent is what is accounted for exactly when each file is referenced once. -/
theorem sent_perm_iff : (sent live recent artifacts).Perm (accountedFiles (referenced live artifacts recent).materials) ↔
    FilesOnce live recent := by
  rw [(referenced_blocks live recent artifacts).2, ← (referenced_blocks live recent artifacts).1]
  have hentry : ∀ id t, (id, t) ∈ (referenced live artifacts recent).fileContexts.entries ↔
      blockOf live recent artifacts id = some t := fun _ _ => OrdMap.mem_entries
  have hkeys := (referenced live artifacts recent).fileContexts.nodup
  constructor
  · intro h
    have hids := h.map Prod.fst
    rw [map_fst_sent] at hids
    refine ⟨hids.nodup_iff.mpr hkeys, fun id hid hfile => ?_⟩
    obtain ⟨t, ht⟩ := (blockOf_isSome live recent artifacts).mpr ⟨hid, hfile⟩
    exact ((mem_sent live recent artifacts).mp (h.mem_iff.mpr ((hentry id t).mpr ht))).1
  · rintro ⟨hnodup, hshown⟩
    rw [← map_fst_sent live recent artifacts] at hnodup
    refine (List.perm_ext_iff_of_nodup (List.Nodup.of_map _ hnodup) (List.Nodup.of_map _ hkeys)).mpr ?_
    rintro ⟨id, t⟩
    rw [mem_sent, hentry]
    refine and_iff_right_of_imp fun ht => ?_
    obtain ⟨hid, hfile⟩ := (blockOf_isSome live recent artifacts).mp ⟨t, ht⟩
    exact hshown id hid hfile

theorem fileBlocks_eq (ids : List String) : fileBlocks (referenced live artifacts recent).fileContexts ids =
    (ids.filterMap fun id => (blockOf live recent artifacts id).map fun t => (id, t)).map Prod.snd := by
  unfold fileBlocks
  induction ids with
  | nil => rfl
  | cons id ids ih =>
    rw [List.flatMap_cons, ih]
    rcases hblock : blockOf live recent artifacts id with _ | t
    · have hget : (referenced live artifacts recent).fileContexts.get? id = none := hblock
      rw [List.filterMap_cons_none (by rw [hblock]; rfl), hget]
      rfl
    · have hget : (referenced live artifacts recent).fileContexts.get? id = some t := hblock
      obtain ⟨a, hmem, -⟩ := (blockOf_iff live recent artifacts).mp hblock
      have hne : t ≠ [] := (mem_blocks hmem).1.ne_nil
      rw [List.filterMap_cons_some (by rw [hblock]; rfl), List.map_cons, hget]
      dsimp only
      rw [if_neg hne]
      rfl

variable (canonicalSha256 : Text → Text) (before excerpts : List ContextMaterial)

/-- **The files of a conversation**: the assembly keeps the budget and accounts for what it sends exactly when each
file is referenced once. -/
theorem assemble_exact :
    Budgeted live recent artifacts canonicalSha256 before excerpts ↔ FilesOnce live recent := by
  constructor
  · intro h
    exact (sent_perm_iff live recent artifacts).mp h.accounted
  · intro h
    have hperm := (sent_perm_iff live recent artifacts).mpr h
    refine ⟨?_, rfl, ?_, ?_, ?_, hperm⟩
    · refine (insertFiles_messages _ recent).2.trans (List.map_congr_left fun row _ => ?_)
      rw [fileBlocks_eq]
      rfl
    · intro hfits
      have hreserved : reservedFor ((orderedAttachments live (allRefs recent).eraseDups).filter AttachmentRow.isFile) =
          reservedFor (referencedFiles live recent) := ((ordered_perm live recent).map _).sum_eq
      have hfits' : (reservedFor ((orderedAttachments live (allRefs recent).eraseDups).filter AttachmentRow.isFile) : ℤ) ≤
          (MAX_TOTAL_FILE_CONTEXT_CHARACTERS : ℕ) := Int.ofNat_le.mpr (hreserved.trans_le hfits)
      have hsum := sum_blocks ((orderedAttachments live (allRefs recent).eraseDups).filter AttachmentRow.isFile) hfits'
      rw [(referenced_blocks live recent artifacts).2] at hperm
      have hsent : ((sent live recent artifacts).map fun b => b.2.length).sum =
          ((madeBlocks live recent).map fun b => b.2.length).sum := by
        rw [(hperm.map _).sum_eq, List.map_map]
        rfl
      rw [hsent]
      exact Int.ofNat_le.mp hsum
    · rintro ⟨id, t⟩ hb
      obtain ⟨a, hmem, rfl⟩ := (blockOf_iff live recent artifacts).mp ((mem_sent live recent artifacts).mp hb).2
      have hfile : a ∈ referencedFiles live recent :=
        (madeBlocks_perm live recent).mem_iff.mp (List.mem_map_of_mem (f := Prod.fst) hmem)
      obtain ⟨hrow, hfile⟩ := List.mem_filter.mp hfile
      rw [Bool.and_eq_true] at hfile
      obtain ⟨hblock, hlength⟩ := mem_blocks hmem
      exact ⟨a, hrow, rfl, hfile.1, hblock, hlength⟩
    · intro a ha
      obtain ⟨hrow, hfile⟩ := List.mem_filter.mp ha
      rw [Bool.and_eq_true, decide_eq_true_eq] at hfile
      have hisFile : isFileRef live a.id = true := (isFileRef_iff live).mpr ⟨a, hrow, hfile.1, rfl⟩
      obtain ⟨t, ht⟩ := (blockOf_isSome live recent artifacts).mpr ⟨hfile.2, hisFile⟩
      exact ⟨t, (mem_sent live recent artifacts).mpr ⟨h.2 a.id hfile.2 hisFile, ht⟩⟩

end

/-! ### Three references to a file -/

/-- A text of sixty thousand characters. -/
def notes : AttachmentRow where
  id := "notes"
  sha256 := []
  mime := units "text/plain"
  original_filename := units "notes.txt"
  extracted_text := some (List.replicate 60000 (unit 'x'))
  extracted_text_sha256 := some []
  extraction_truncated := false

def notesLive : Attachments := ⟨[notes], List.nodup_singleton _⟩

def notesMessage (sequence : ℕ) : WorkMessage where
  id := "message"
  role := .user
  visibility_status := .complete
  sequence := sequence + 1
  parts := [.attachment "notes" "notes.txt" "text/plain"]
  sequence_pos := Nat.succ_pos _
  stored := by decide

def notesMessages : List WorkMessage := [notesMessage 0, notesMessage 1, notesMessage 2]

theorem notesMessages_shown : shownRows notesMessages = notesMessages := by
  unfold shownRows notesMessages
  decide

theorem notes_header : (fileBlockHeader notes).length = 64 := by decide

theorem notes_minimum : (minimumFileBlock notes).length = 145 := by
  have homission : omission.length = 81 := by decide
  rw [minimumFileBlock, List.length_append, notes_header, homission]

theorem notes_block : (boundedFileBlock notes (availableForFile notes MAX_TOTAL_FILE_CONTEXT_CHARACTERS 0)).length = 50000 := by
  have havailable : availableForFile notes MAX_TOTAL_FILE_CONTEXT_CHARACTERS 0 = 50000 := by
    unfold availableForFile
    rw [notes_minimum]
    rfl
  have hmarker : marker.length = 52 := by decide
  have htext : notes.extracted_text = some (List.replicate 60000 (unit 'x')) := rfl
  rw [havailable]
  refine boundedFileBlock_long htext ?_ ?_
  · rw [notes_header, List.length_replicate]
    omega
  · rw [notes_header, hmarker]
    omega

theorem notes_made : madeBlocks notesLive notesMessages =
    [(notes, boundedFileBlock notes (availableForFile notes MAX_TOTAL_FILE_CONTEXT_CHARACTERS 0))] := by
  rfl

/-- Three messages refer to one file: its block is sent three times, and the total is above the limit. -/
theorem notes_sent : ¬ Budgeted notesLive notesMessages [] id [] [] := by
  intro h
  have hblock : blockOf notesLive notesMessages [] "notes" =
      some (boundedFileBlock notes (availableForFile notes MAX_TOTAL_FILE_CONTEXT_CHARACTERS 0)) :=
    (blockOf_iff notesLive notesMessages []).mpr ⟨notes, by rw [notes_made]; exact List.mem_singleton_self _, rfl⟩
  have hsentOf : ∀ n, sentOf notesLive notesMessages [] (notesMessage n) =
      [("notes", boundedFileBlock notes (availableForFile notes MAX_TOTAL_FILE_CONTEXT_CHARACTERS 0))] := by
    intro n
    have hrefs : sentOf notesLive notesMessages [] (notesMessage n) = ["notes"].filterMap fun id =>
        (blockOf notesLive notesMessages [] id).map fun t => (id, t) := rfl
    rw [hrefs, List.filterMap_cons_some (by rw [hblock]; rfl)]
    rfl
  have htotal := h.total (by
    have hfiles : referencedFiles notesLive notesMessages = [notes] := rfl
    rw [hfiles]
    unfold reservedFor
    rw [List.map_singleton, List.sum_singleton, notes_minimum]
    decide)
  unfold sent at htotal
  rw [notesMessages_shown] at htotal
  simp only [notesMessages, List.flatMap_cons, List.flatMap_nil] at htotal
  rw [show sentOf notesLive [notesMessage 0, notesMessage 1, notesMessage 2] [] = sentOf notesLive notesMessages [] from rfl,
    hsentOf, hsentOf, hsentOf] at htotal
  simp only [List.append_nil, List.singleton_append, List.map_cons, List.map_nil, List.sum_cons, List.sum_nil,
    notes_block] at htotal
  exact absurd htotal (by decide)

end Norns.Conversations.FileContext
