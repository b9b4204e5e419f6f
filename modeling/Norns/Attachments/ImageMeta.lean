import Mathlib.Algebra.Ring.Nat
import Mathlib.Data.List.Basic
import Mathlib.Tactic.Common

/-! # Image headers

`sniffImage` (`imageMeta.ts`) with its format readers. A read outside of the buffer is an error: `readUInt16BE` and its
like throw there, and `b[i]`, which would give `undefined`, counts as an error here too, so that none goes unseen.

* `sniffImage`: the format of some bytes, and the dimensions in their header;
* `walk`: the walk over the markers of a JPEG, which ends because every step goes forward;
* `Found`: where each format has its dimensions;
* `walk_piece`, `walk_frame`: the walk over one piece of a marker stream, and its end;
* `sniffImage_sound`: what is returned, for any bytes and for a JPEG marker stream. -/

namespace Norns.Attachments.ImageMeta

inductive AttachmentImageMime
  | png | jpeg | webp | gif
  deriving DecidableEq, Repr

structure DetectedImage where
  mime : AttachmentImageMime
  width : Option ℕ
  height : Option ℕ
  deriving DecidableEq, Repr

structure Dim where
  width : Option ℕ
  height : Option ℕ
  deriving DecidableEq, Repr

def NO_DIM : Dim := ⟨none, none⟩

abbrev Buffer := List UInt8

inductive RangeError
  | ERR_OUT_OF_RANGE
  deriving DecidableEq, Repr

/-- What reads from a buffer. -/
abbrev Read := Except RangeError

/-! ### Reads -/

def byteAt (b : Buffer) (i : ℕ) : Read ℕ :=
  match b[i]? with
  | none => .error .ERR_OUT_OF_RANGE
  | some byte => .ok byte.toNat

def readUIntBE (b : Buffer) (i : ℕ) : ℕ → Read ℕ
  | 0 => .ok 0
  | n + 1 => do return (← byteAt b i) * 256 ^ n + (← readUIntBE b (i + 1) n)

def readUIntLE (b : Buffer) (i : ℕ) : ℕ → Read ℕ
  | 0 => .ok 0
  | n + 1 => do return (← byteAt b i) + 256 * (← readUIntLE b (i + 1) n)

def readUInt16BE (b : Buffer) (i : ℕ) : Read ℕ := readUIntBE b i 2

def readUInt32BE (b : Buffer) (i : ℕ) : Read ℕ := readUIntBE b i 4

def readUInt16LE (b : Buffer) (i : ℕ) : Read ℕ := readUIntLE b i 2

def readUInt32LE (b : Buffer) (i : ℕ) : Read ℕ := readUIntLE b i 4

/-- `b.toString("ascii", start, stop)`, which drops the highest bit of each byte and stops at the end. -/
def ascii (b : Buffer) (start stop : ℕ) : List Char :=
  ((b.drop start).take (stop - start)).map fun byte => Char.ofNat (byte.toNat % 128)

/-! ### PNG -/

def PNG_SIGNATURE : Buffer := [0x89, 0x50, 0x4e, 0x47, 0x0d, 0x0a, 0x1a, 0x0a]

def isPng (b : Buffer) : Bool := 8 ≤ b.length && b.take 8 = PNG_SIGNATURE

def pngDimensions (b : Buffer) : Read Dim :=
  if b.length < 24 ∨ ascii b 12 16 ≠ "IHDR".toList then return NO_DIM
  else do return ⟨some (← readUInt32BE b 16), some (← readUInt32BE b 20)⟩

/-! ### GIF -/

def isGif (b : Buffer) : Bool :=
  6 ≤ b.length && (ascii b 0 6 = "GIF87a".toList || ascii b 0 6 = "GIF89a".toList)

def gifDimensions (b : Buffer) : Read Dim :=
  if b.length < 10 then return NO_DIM
  else do return ⟨some (← readUInt16LE b 6), some (← readUInt16LE b 8)⟩

/-! ### JPEG -/

def isJpeg (b : Buffer) : Read Bool :=
  if b.length < 3 then return false
  else do return (← byteAt b 0) = 0xff && (← byteAt b 1) = 0xd8 && (← byteAt b 2) = 0xff

/-- SOF0..SOF15, without the markers among them that start no frame. -/
def isSof (marker : ℕ) : Bool :=
  0xc0 ≤ marker && marker ≤ 0xcf && marker ≠ 0xc4 && marker ≠ 0xc8 && marker ≠ 0xcc

/-- RSTn, SOI, EOI, TEM -/
def isStandalone (marker : ℕ) : Bool := 0xd0 ≤ marker && marker ≤ 0xd9 || marker = 0x01

def walk (b : Buffer) (offset : ℕ) : Read Dim :=
  if h : offset + 9 < b.length then do
    if (← byteAt b offset) ≠ 0xff then walk b (offset + 1)
    else
      let marker ← byteAt b (offset + 1)
      if isSof marker then
        let height ← readUInt16BE b (offset + 5)
        let width ← readUInt16BE b (offset + 7)
        return ⟨some width, some height⟩
      else if isStandalone marker then walk b (offset + 2)
      else
        let segmentLength ← readUInt16BE b (offset + 2)
        if segmentLength < 2 then return NO_DIM else walk b (offset + 2 + segmentLength)
  else return NO_DIM
termination_by b.length - offset

def jpegDimensions (b : Buffer) : Read Dim := walk b 2

/-! ### WEBP -/

def isWebp (b : Buffer) : Bool :=
  12 ≤ b.length && ascii b 0 4 = "RIFF".toList && ascii b 8 12 = "WEBP".toList

def webpDimensions (b : Buffer) : Read Dim :=
  if b.length < 16 then return NO_DIM
  else if ascii b 12 16 = "VP8 ".toList then
    if b.length < 30 then return NO_DIM
    else do return ⟨some ((← readUInt16LE b 26) &&& 0x3fff), some ((← readUInt16LE b 28) &&& 0x3fff)⟩
  else if ascii b 12 16 = "VP8L".toList then do
    if b.length < 25 then return NO_DIM
    else if (← byteAt b 20) ≠ 0x2f then return NO_DIM
    else
      let bits ← readUInt32LE b 21
      return ⟨some ((bits &&& 0x3fff) + 1), some ((bits >>> 14 &&& 0x3fff) + 1)⟩
  else if ascii b 12 16 = "VP8X".toList then
    if b.length < 30 then return NO_DIM
    else do return ⟨some (1 + (← readUIntLE b 24 3)), some (1 + (← readUIntLE b 27 3))⟩
  else return NO_DIM

/-! ### The format -/

def detected (mime : AttachmentImageMime) (dim : Dim) : DetectedImage := ⟨mime, dim.width, dim.height⟩

def sniffImage (b : Buffer) : Read (Option DetectedImage) := do
  if isPng b then return some (detected .png (← pngDimensions b))
  else if isGif b then return some (detected .gif (← gifDimensions b))
  else if (← isJpeg b) then return some (detected .jpeg (← jpegDimensions b))
  else if isWebp b then return some (detected .webp (← webpDimensions b))
  else return none

/-! ### Reads inside of the buffer -/

@[simp] theorem ok_bind {α β : Type} (a : α) (f : α → Read β) : (Except.ok a >>= f) = f a := rfl

@[simp] theorem pure_eq {α : Type} (a : α) : (pure a : Read α) = .ok a := rfl

variable {b : Buffer}

theorem byteAt_ok {i : ℕ} (h : i < b.length) : ∃ value, byteAt b i = .ok value :=
  ⟨b[i].toNat, by unfold byteAt; rw [List.getElem?_eq_getElem h]⟩

theorem readUIntBE_ok {n : ℕ} : ∀ {i : ℕ}, i + n ≤ b.length → ∃ value, readUIntBE b i n = .ok value := by
  induction n with
  | zero => exact fun _ => ⟨0, rfl⟩
  | succ n ih =>
    intro i h
    obtain ⟨hi, hbyte⟩ := byteAt_ok (b := b) (i := i) (by omega)
    obtain ⟨rest, hrest⟩ := ih (i := i + 1) (by omega)
    exact ⟨hi * 256 ^ n + rest, by unfold readUIntBE; rw [hbyte, hrest]; rfl⟩

theorem readUIntLE_ok {n : ℕ} : ∀ {i : ℕ}, i + n ≤ b.length → ∃ value, readUIntLE b i n = .ok value := by
  induction n with
  | zero => exact fun _ => ⟨0, rfl⟩
  | succ n ih =>
    intro i h
    obtain ⟨lo, hbyte⟩ := byteAt_ok (b := b) (i := i) (by omega)
    obtain ⟨rest, hrest⟩ := ih (i := i + 1) (by omega)
    exact ⟨lo + 256 * rest, by unfold readUIntLE; rw [hbyte, hrest]; rfl⟩

/-! ### What is found -/

/-- The dimensions, where the format has them and inside of the buffer. -/
inductive Found (b : Buffer) : AttachmentImageMime → ℕ → ℕ → Prop
  | png {w h : ℕ} (inside : 24 ≤ b.length) (width : readUInt32BE b 16 = .ok w) (height : readUInt32BE b 20 = .ok h) :
    Found b .png w h
  | gif {w h : ℕ} (inside : 10 ≤ b.length) (width : readUInt16LE b 6 = .ok w) (height : readUInt16LE b 8 = .ok h) :
    Found b .gif w h
  | jpeg {offset marker w h : ℕ} (inside : offset + 9 < b.length) (fill : byteAt b offset = .ok 0xff)
    (sof : byteAt b (offset + 1) = .ok marker) (frame : isSof marker = true)
    (height : readUInt16BE b (offset + 5) = .ok h) (width : readUInt16BE b (offset + 7) = .ok w) : Found b .jpeg w h
  | lossy {w h : ℕ} (inside : 30 ≤ b.length) (width : readUInt16LE b 26 = .ok w)
    (height : readUInt16LE b 28 = .ok h) : Found b .webp (w &&& 0x3fff) (h &&& 0x3fff)
  | lossless {bits : ℕ} (inside : 25 ≤ b.length) (dims : readUInt32LE b 21 = .ok bits) :
    Found b .webp ((bits &&& 0x3fff) + 1) ((bits >>> 14 &&& 0x3fff) + 1)
  | extended {w h : ℕ} (inside : 30 ≤ b.length) (width : readUIntLE b 24 3 = .ok w)
    (height : readUIntLE b 27 3 = .ok h) : Found b .webp (1 + w) (1 + h)

/-- Dimensions that were found, or none. -/
def Dimensions (b : Buffer) (mime : AttachmentImageMime) (dim : Dim) : Prop :=
  dim = NO_DIM ∨ ∃ w h, dim = ⟨some w, some h⟩ ∧ Found b mime w h

theorem pngDimensions_sound : ∃ dim, pngDimensions b = .ok dim ∧ Dimensions b .png dim := by
  unfold pngDimensions
  split_ifs with hshort
  · exact ⟨NO_DIM, rfl, .inl rfl⟩
  · obtain ⟨w, hw⟩ := readUIntBE_ok (b := b) (i := 16) (n := 4) (by omega)
    obtain ⟨h, hh⟩ := readUIntBE_ok (b := b) (i := 20) (n := 4) (by omega)
    refine ⟨⟨some w, some h⟩, ?_, .inr ⟨w, h, rfl, .png (by omega) hw hh⟩⟩
    unfold readUInt32BE
    rw [hw, hh]
    rfl

theorem gifDimensions_sound : ∃ dim, gifDimensions b = .ok dim ∧ Dimensions b .gif dim := by
  unfold gifDimensions
  split_ifs with hshort
  · exact ⟨NO_DIM, rfl, .inl rfl⟩
  · obtain ⟨w, hw⟩ := readUIntLE_ok (b := b) (i := 6) (n := 2) (by omega)
    obtain ⟨h, hh⟩ := readUIntLE_ok (b := b) (i := 8) (n := 2) (by omega)
    refine ⟨⟨some w, some h⟩, ?_, .inr ⟨w, h, rfl, .gif (by omega) hw hh⟩⟩
    unfold readUInt16LE
    rw [hw, hh]
    rfl

/-- The walk at a marker. -/
theorem walk_marker {offset marker : ℕ} (h : offset + 9 < b.length) (hfill : byteAt b offset = .ok 0xff)
    (hmarker : byteAt b (offset + 1) = .ok marker) : walk b offset =
      if isSof marker then (do
        let height ← readUInt16BE b (offset + 5)
        let width ← readUInt16BE b (offset + 7)
        return ⟨some width, some height⟩)
      else if isStandalone marker then walk b (offset + 2)
      else (do
        let segmentLength ← readUInt16BE b (offset + 2)
        if segmentLength < 2 then return NO_DIM else walk b (offset + 2 + segmentLength)) := by
  rw [walk, dif_pos h, hfill, ok_bind, if_neg (by decide), hmarker, ok_bind]

/-- **The walk** ends, and reads inside of the buffer. -/
theorem walk_sound (offset : ℕ) : ∃ dim, walk b offset = .ok dim ∧ Dimensions b .jpeg dim := by
  induction offset using walk.induct (b := b) with
  | case1 offset h ihskip ihstandalone ihsegment =>
    obtain ⟨first, hfirst⟩ := byteAt_ok (b := b) (i := offset) (by omega)
    obtain ⟨marker, hmarker⟩ := byteAt_ok (b := b) (i := offset + 1) (by omega)
    by_cases hfill : first = 0xff
    · rw [hfill] at hfirst
      rw [walk_marker h hfirst hmarker]
      split_ifs with hsof hstandalone
      · obtain ⟨height, hheight⟩ := readUIntBE_ok (b := b) (i := offset + 5) (n := 2) (by omega)
        obtain ⟨width, hwidth⟩ := readUIntBE_ok (b := b) (i := offset + 7) (n := 2) (by omega)
        refine ⟨⟨some width, some height⟩, ?_, .inr ⟨width, height, rfl, .jpeg h hfirst hmarker hsof hheight hwidth⟩⟩
        unfold readUInt16BE
        rw [hheight, hwidth]
        rfl
      · exact ihstandalone
      · obtain ⟨segmentLength, hlength⟩ := readUIntBE_ok (b := b) (i := offset + 2) (n := 2) (by omega)
        unfold readUInt16BE
        rw [hlength, ok_bind]
        split_ifs with hshort
        · exact ⟨NO_DIM, rfl, .inl rfl⟩
        · exact ihsegment segmentLength hshort
    · rw [walk, dif_pos h, hfirst, ok_bind, if_pos hfill]
      exact ihskip
  | case2 offset h =>
    rw [walk, dif_neg h]
    exact ⟨NO_DIM, rfl, .inl rfl⟩

theorem isJpeg_ok : ∃ jpeg, isJpeg b = .ok jpeg := by
  unfold isJpeg
  split_ifs with hshort
  · exact ⟨false, rfl⟩
  · obtain ⟨b0, h0⟩ := byteAt_ok (b := b) (i := 0) (by omega)
    obtain ⟨b1, h1⟩ := byteAt_ok (b := b) (i := 1) (by omega)
    obtain ⟨b2, h2⟩ := byteAt_ok (b := b) (i := 2) (by omega)
    rw [h0, h1, h2]
    exact ⟨_, rfl⟩

theorem webpDimensions_sound : ∃ dim, webpDimensions b = .ok dim ∧ Dimensions b .webp dim := by
  have hnone : ∃ dim, (return NO_DIM : Read Dim) = .ok dim ∧ Dimensions b .webp dim := ⟨NO_DIM, rfl, .inl rfl⟩
  unfold webpDimensions
  split_ifs with hshort hlossy hlossyShort hlossless hlosslessShort hextended hextendedShort
  · exact hnone
  · exact hnone
  · obtain ⟨w, hw⟩ := readUIntLE_ok (b := b) (i := 26) (n := 2) (by omega)
    obtain ⟨h, hh⟩ := readUIntLE_ok (b := b) (i := 28) (n := 2) (by omega)
    refine ⟨⟨some (w &&& 0x3fff), some (h &&& 0x3fff)⟩, ?_, .inr ⟨_, _, rfl, .lossy (by omega) hw hh⟩⟩
    unfold readUInt16LE
    rw [hw, hh]
    rfl
  · exact hnone
  · obtain ⟨signature, hsignature⟩ := byteAt_ok (b := b) (i := 20) (by omega)
    rw [hsignature, ok_bind]
    split_ifs with hwrong
    · exact hnone
    · obtain ⟨bits, hbits⟩ := readUIntLE_ok (b := b) (i := 21) (n := 4) (by omega)
      refine ⟨⟨some ((bits &&& 0x3fff) + 1), some ((bits >>> 14 &&& 0x3fff) + 1)⟩, ?_,
        .inr ⟨_, _, rfl, .lossless (by omega) hbits⟩⟩
      unfold readUInt32LE
      rw [hbits]
      rfl
  · exact hnone
  · obtain ⟨w, hw⟩ := readUIntLE_ok (b := b) (i := 24) (n := 3) (by omega)
    obtain ⟨h, hh⟩ := readUIntLE_ok (b := b) (i := 27) (n := 3) (by omega)
    refine ⟨⟨some (1 + w), some (1 + h)⟩, ?_, .inr ⟨_, _, rfl, .extended (by omega) hw hh⟩⟩
    rw [hw, hh]
    rfl
  · exact hnone

/-- What is returned for any bytes. -/
theorem sniffImage_ok (b : Buffer) : ∃ result, sniffImage b = .ok result ∧
    ∀ image ∈ result, Dimensions b image.mime ⟨image.width, image.height⟩ := by
  have hsome : ∀ {mime dim}, Dimensions b mime dim →
      ∀ image ∈ some (detected mime dim), Dimensions b image.mime ⟨image.width, image.height⟩ := by
    intro mime dim hdim image himage
    rw [← Option.some.inj himage]
    exact hdim
  unfold sniffImage
  by_cases hpng : isPng b = true
  · obtain ⟨dim, hdim, hsound⟩ := pngDimensions_sound (b := b)
    rw [if_pos hpng, hdim]
    exact ⟨_, rfl, hsome hsound⟩
  by_cases hgif : isGif b = true
  · obtain ⟨dim, hdim, hsound⟩ := gifDimensions_sound (b := b)
    rw [if_neg hpng, if_pos hgif, hdim]
    exact ⟨_, rfl, hsome hsound⟩
  obtain ⟨jpeg, hjpeg⟩ := isJpeg_ok (b := b)
  rw [if_neg hpng, if_neg hgif, hjpeg, ok_bind]
  by_cases htrue : jpeg = true
  · obtain ⟨dim, hdim, hsound⟩ := walk_sound (b := b) 2
    rw [if_pos htrue, jpegDimensions, hdim]
    exact ⟨_, rfl, hsome hsound⟩
  rw [if_neg htrue]
  by_cases hwebp : isWebp b = true
  · obtain ⟨dim, hdim, hsound⟩ := webpDimensions_sound (b := b)
    rw [if_pos hwebp, hdim]
    exact ⟨_, rfl, hsome hsound⟩
  · rw [if_neg hwebp]
    exact ⟨none, rfl, fun image himage => by cases himage⟩

/-! ### Marker streams -/

/-- A number below `2 ^ 16`, its high byte first. -/
def uint16BE (value : ℕ) : Buffer := [UInt8.ofNat (value / 256), UInt8.ofNat (value % 256)]

/-- What may stand before the frame header. -/
inductive Piece
  | segment (marker : UInt8) (payload : Buffer)
  | standalone (marker : UInt8)

/-- The bytes of a piece, with fill bytes before its marker. -/
def Piece.bytes (fill : ℕ) : Piece → Buffer
  | .segment marker payload =>
    List.replicate fill 0xff ++ 0xff :: marker :: uint16BE (payload.length + 2) ++ payload
  | .standalone marker => List.replicate fill 0xff ++ [0xff, marker]

/-- The marker is one of its kind, and the length of a segment fits in two bytes. -/
def Piece.WellFormed : Piece → Prop
  | .segment marker payload => isSof marker.toNat = false ∧ isStandalone marker.toNat = false ∧
      marker ≠ 0x00 ∧ marker ≠ 0xff ∧ payload.length + 2 < 65536
  | .standalone marker => isStandalone marker.toNat = true

/-- A frame header, with three bytes for each component. -/
structure Frame where
  marker : UInt8
  precision : UInt8
  height : ℕ
  width : ℕ
  components : List (UInt8 × UInt8 × UInt8)
  sof : isSof marker.toNat = true
  height_lt : height < 65536
  width_lt : width < 65536
  components_pos : 0 < components.length
  components_lt : components.length < 256

def Frame.bytes (fill : ℕ) (frame : Frame) : Buffer :=
  List.replicate fill 0xff ++ 0xff :: frame.marker :: uint16BE (8 + 3 * frame.components.length) ++
    frame.precision :: uint16BE frame.height ++ uint16BE frame.width ++
    UInt8.ofNat frame.components.length :: frame.components.flatMap fun c => [c.1, c.2.1, c.2.2]

/-- A marker stream: SOI, pieces, the first frame header, and anything after it; each with its number of fill bytes. -/
structure MarkerStream where
  pieces : List (ℕ × Piece)
  fill : ℕ
  frame : Frame
  rest : Buffer

def MarkerStream.bytes (s : MarkerStream) : Buffer :=
  0xff :: 0xd8 :: (s.pieces.flatMap fun p => p.2.bytes p.1) ++ s.frame.bytes s.fill ++ s.rest

def MarkerStream.WellFormed (s : MarkerStream) : Prop := ∀ p ∈ s.pieces, p.2.WellFormed

/-- No marker has fill bytes before it. -/
def MarkerStream.Unfilled (s : MarkerStream) : Prop := s.fill = 0 ∧ ∀ p ∈ s.pieces, p.1 = 0

theorem byteAt_append (pre s : Buffer) (i : ℕ) : byteAt (pre ++ s) (pre.length + i) = byteAt s i := by
  unfold byteAt
  rw [List.getElem?_append_right (by omega), Nat.add_sub_cancel_left]

/-- A number is read back after the bytes before it. -/
theorem readUInt16BE_append {value : ℕ} (h : value < 65536) (pre r : Buffer) :
    readUInt16BE (pre ++ (uint16BE value ++ r)) pre.length = .ok value := by
  have hhigh : byteAt (pre ++ (uint16BE value ++ r)) pre.length = .ok (value / 256) := by
    rw [← Nat.add_zero pre.length, byteAt_append]
    show Except.ok (UInt8.ofNat (value / 256)).toNat = _
    rw [UInt8.toNat_ofNat', Nat.mod_eq_of_lt (by omega)]
  have hlow : byteAt (pre ++ (uint16BE value ++ r)) (pre.length + 1) = .ok (value % 256) := by
    rw [byteAt_append]
    show Except.ok (UInt8.ofNat (value % 256)).toNat = _
    rw [UInt8.toNat_ofNat', Nat.mod_mod]
  unfold readUInt16BE
  simp only [readUIntBE, hhigh, hlow, ok_bind, pure_eq, Except.ok.injEq]
  omega

/-- **One piece** of the stream is passed. -/
theorem walk_piece {piece : Piece} (h : piece.WellFormed) (pre : Buffer) {tail : Buffer} (htail : 10 ≤ tail.length) :
    walk (pre ++ (piece.bytes 0 ++ tail)) pre.length =
      walk (pre ++ (piece.bytes 0 ++ tail)) (pre.length + (piece.bytes 0).length) := by
  have hfill : byteAt (pre ++ (piece.bytes 0 ++ tail)) (pre.length + 0) = .ok 0xff := by
    rw [byteAt_append]
    cases piece <;> rfl
  have hinside : pre.length + 9 < (pre ++ (piece.bytes 0 ++ tail)).length := by
    simp only [List.length_append]
    omega
  cases piece with
  | segment marker payload =>
    obtain ⟨hsof, hstandalone, -, -, hpayload⟩ := h
    have hmarker : byteAt (pre ++ ((Piece.segment marker payload).bytes 0 ++ tail)) (pre.length + 1) =
        .ok marker.toNat := byteAt_append pre _ 1
    have hbytes : pre ++ ((Piece.segment marker payload).bytes 0 ++ tail) =
        (pre ++ [0xff, marker]) ++ (uint16BE (payload.length + 2) ++ (payload ++ tail)) := by
      simp [Piece.bytes]
    have hlength : readUInt16BE (pre ++ ((Piece.segment marker payload).bytes 0 ++ tail)) (pre.length + 2) =
        .ok (payload.length + 2) := by
      rw [hbytes]
      have := readUInt16BE_append hpayload (pre ++ [0xff, marker]) (payload ++ tail)
      rwa [List.length_append] at this
    rw [walk_marker hinside hfill hmarker, hsof, hstandalone, if_neg (by decide), if_neg (by decide), hlength, ok_bind,
      if_neg (by omega)]
    congr 1
    simp only [Piece.bytes, uint16BE, List.replicate_zero, List.nil_append, List.length_append, List.length_cons,
      List.length_nil]
    omega
  | standalone marker =>
    have hmarker : byteAt (pre ++ ((Piece.standalone marker).bytes 0 ++ tail)) (pre.length + 1) =
        .ok marker.toNat := byteAt_append pre _ 1
    have hstandalone : isStandalone marker.toNat = true := h
    have hsof : isSof marker.toNat = false := by
      have h := hstandalone
      simp only [isStandalone, isSof, Bool.or_eq_true, Bool.and_eq_true, decide_eq_true_eq] at h ⊢
      simp only [Bool.and_eq_false_iff, decide_eq_false_iff_not]
      omega
    rw [walk_marker hinside hfill hmarker, hsof, if_neg (by decide), if_pos hstandalone]
    rfl

/-- **The frame header** ends the walk. -/
theorem walk_frame (frame : Frame) (pre rest : Buffer) :
    walk (pre ++ (frame.bytes 0 ++ rest)) pre.length = .ok ⟨some frame.width, some frame.height⟩ := by
  have hfill : byteAt (pre ++ (frame.bytes 0 ++ rest)) (pre.length + 0) = .ok 0xff := byteAt_append pre _ 0
  have hmarker : byteAt (pre ++ (frame.bytes 0 ++ rest)) (pre.length + 1) = .ok frame.marker.toNat :=
    byteAt_append pre _ 1
  have hinside : pre.length + 9 < (pre ++ (frame.bytes 0 ++ rest)).length := by
    simp only [Frame.bytes, uint16BE, List.replicate_zero, List.nil_append, List.length_append, List.length_cons,
      List.length_nil]
    omega
  have hheight : readUInt16BE (pre ++ (frame.bytes 0 ++ rest)) (pre.length + 5) = .ok frame.height := by
    have hread := readUInt16BE_append frame.height_lt
      (pre ++ (0xff :: frame.marker :: uint16BE (8 + 3 * frame.components.length) ++ [frame.precision]))
      (uint16BE frame.width ++ (UInt8.ofNat frame.components.length ::
        frame.components.flatMap fun c => [c.1, c.2.1, c.2.2]) ++ rest)
    rw [List.length_append] at hread
    rw [← hread]
    simp [Frame.bytes, uint16BE]
  have hwidth : readUInt16BE (pre ++ (frame.bytes 0 ++ rest)) (pre.length + 7) = .ok frame.width := by
    have hread := readUInt16BE_append frame.width_lt
      (pre ++ (0xff :: frame.marker :: uint16BE (8 + 3 * frame.components.length) ++ [frame.precision] ++
        uint16BE frame.height))
      (UInt8.ofNat frame.components.length :: (frame.components.flatMap fun c => [c.1, c.2.1, c.2.2]) ++ rest)
    rw [List.length_append] at hread
    rw [← hread]
    simp [Frame.bytes, uint16BE]
  rw [walk_marker hinside hfill hmarker, if_pos frame.sof, hheight, ok_bind, hwidth, ok_bind, pure_eq]

/-- The walk over the pieces, by induction on them. -/
theorem walk_pieces (frame : Frame) (rest : Buffer) {pieces : List (ℕ × Piece)} :
    ∀ (pre : Buffer), (∀ p ∈ pieces, p.2.WellFormed) → (∀ p ∈ pieces, p.1 = 0) →
      walk (pre ++ ((pieces.flatMap fun p => p.2.bytes p.1) ++ (frame.bytes 0 ++ rest))) pre.length =
        .ok ⟨some frame.width, some frame.height⟩ := by
  induction pieces with
  | nil => exact fun pre _ _ => walk_frame frame pre rest
  | cons p pieces ih =>
    intro pre hwell hunfilled
    obtain ⟨fill, piece⟩ := p
    obtain rfl : fill = 0 := hunfilled (fill, piece) List.mem_cons_self
    have htail : 10 ≤ ((pieces.flatMap fun p => p.2.bytes p.1) ++ (frame.bytes 0 ++ rest)).length := by
      simp only [Frame.bytes, uint16BE, List.replicate_zero, List.nil_append, List.length_append, List.length_cons,
        List.length_nil]
      omega
    have hpiece := walk_piece (hwell (0, piece) List.mem_cons_self) pre htail
    have hrest := ih (pre ++ piece.bytes 0) (fun q hq => hwell q (List.mem_cons_of_mem _ hq))
      fun q hq => hunfilled q (List.mem_cons_of_mem _ hq)
    rw [List.length_append, List.append_assoc] at hrest
    rw [List.flatMap_cons, List.append_assoc, hpiece, hrest]

/-- The first byte after SOI starts a marker. -/
theorem MarkerStream.bytes_eq {s : MarkerStream} (h : s.Unfilled) : ∃ t, s.bytes = 0xff :: 0xd8 :: 0xff :: t := by
  obtain ⟨hfill, hpieces⟩ := h
  unfold MarkerStream.bytes
  rcases hs : s.pieces with _ | ⟨⟨fill, piece⟩, pieces⟩
  · rw [hfill]
    exact ⟨_, rfl⟩
  · obtain rfl : fill = 0 := hpieces (fill, piece) (by rw [hs]; exact List.mem_cons_self)
    rw [List.flatMap_cons]
    cases piece <;> exact ⟨_, rfl⟩

theorem sniffImage_stream {s : MarkerStream} (hwell : s.WellFormed) (hunfilled : s.Unfilled) :
    sniffImage s.bytes = .ok (some ⟨.jpeg, some s.frame.width, some s.frame.height⟩) := by
  obtain ⟨t, ht⟩ := s.bytes_eq hunfilled
  have hpng : isPng s.bytes = false := by
    rw [ht]
    simp [isPng, PNG_SIGNATURE]
  have hgif : isGif s.bytes = false := by
    rw [ht]
    simp [isGif, ascii]
  have hjpeg : isJpeg s.bytes = .ok true := by
    rw [ht]
    rfl
  have hwalk : jpegDimensions s.bytes = .ok ⟨some s.frame.width, some s.frame.height⟩ := by
    have hpieces := walk_pieces s.frame s.rest [0xff, 0xd8] hwell hunfilled.2
    rw [← hpieces]
    unfold jpegDimensions MarkerStream.bytes
    rw [hunfilled.1, List.append_assoc]
    rfl
  unfold sniffImage
  rw [hpng, if_neg (by decide), hgif, if_neg (by decide), hjpeg, ok_bind, if_pos rfl, hwalk, ok_bind, pure_eq]
  rfl

/-- **Image sniffing.** For any bytes nothing is read outside of the buffer, and what is returned is no image, or one
whose dimensions are in its header or left out; for a marker stream without fill bytes they are those of the first frame
header. -/
theorem sniffImage_sound (b : Buffer) (s : MarkerStream) :
    (∃ result, sniffImage b = .ok result ∧ ∀ image ∈ result, Dimensions b image.mime ⟨image.width, image.height⟩) ∧
    (s.WellFormed → s.Unfilled →
      sniffImage s.bytes = .ok (some ⟨.jpeg, some s.frame.width, some s.frame.height⟩)) :=
  ⟨sniffImage_ok b, sniffImage_stream⟩

/-- A stream with a comment, a TEM marker and a frame of one component. -/
def sample : MarkerStream :=
  ⟨[(0, .segment 0xfe [0x41, 0xff, 0xc0]), (0, .standalone 0x01)], 0,
    ⟨0xc2, 8, 480, 640, [(1, 0x11, 0)], by decide, by decide, by decide, by decide, by decide⟩, [0xff, 0xd9]⟩

theorem sniffImage_sample : sniffImage sample.bytes = .ok (some ⟨.jpeg, some 640, some 480⟩) :=
  (sniffImage_sound [] sample).2 (by
    intro p hp
    rcases List.mem_cons.mp hp with rfl | hp
    · exact ⟨by decide, by decide, by decide, by decide, by decide⟩
    · obtain rfl := List.mem_singleton.mp hp
      exact (by decide : isStandalone 0x01 = true)) ⟨rfl, by decide⟩

/-- A signature alone is an image without dimensions. -/
theorem no_dimensions : ¬ ∀ b, ∃ result, sniffImage b = .ok result ∧
    ∀ image ∈ result, ∃ w h, 0 < w ∧ 0 < h ∧ image.width = some w ∧ image.height = some h := by
  intro h
  obtain ⟨result, hresult, hpositive⟩ := h PNG_SIGNATURE
  have hsniff : sniffImage PNG_SIGNATURE = .ok (some ⟨.png, none, none⟩) := by decide
  rw [hsniff] at hresult
  obtain rfl := Except.ok.inj hresult
  obtain ⟨w, -, -, -, hw, -⟩ := hpositive _ rfl
  cases hw

end Norns.Attachments.ImageMeta
