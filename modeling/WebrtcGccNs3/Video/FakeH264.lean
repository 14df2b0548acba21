import WebrtcGccNs3.Video.EncodedImages

/-!
# FakeH264Encoder and FakeH264Decoder

The encoder cuts an image into fragments, each a NAL header and bytes that count on from
the fragment before. The decoder is given a byte stream with a start code in front of
each fragment, and checks the count. So it finds out when a fragment is missing, unless
nothing comes behind it. The encoder counts its images in an `int`, of which it needs the
remainder: runs are of fewer than 2^31 images.
-/
namespace WebrtcGccNs3.Video

/-! ## The encoder -/

namespace FakeH264Encoder

def kSpsSize : ℕ := 8

def kPpsSize : ℕ := 11

def kIdrFrequency : ℕ := 10

/-- The fragments of an image of this size, each with its NAL header. -/
def fragments (currentIdrCounter size : ℕ) : List (Fragment × UInt8) :=
  if currentIdrCounter % kIdrFrequency = 0 ∧ size > kSpsSize + kPpsSize + 1 then
    [(⟨0, kSpsSize⟩, 0x67), (⟨kSpsSize, kPpsSize⟩, 0x68),
      (⟨kSpsSize + kPpsSize, size - (kSpsSize + kPpsSize)⟩, 0x65)]
  else [(⟨0, size⟩, 0x41)]

def writeHeaders (fragments : List (Fragment × UInt8)) (data : List UInt8) : List UInt8 :=
  fragments.foldl (fun data fragment => data.set fragment.1.offset fragment.2) data

/-- The loop over the bytes, from index `i` on, with the fragments that are still to come. -/
def countBytes : ℕ → List Fragment → UInt8 → List UInt8 → List UInt8
  | _, _, _, [] => []
  | i, [], value, _ :: data => value :: countBytes (i + 1) [] (value + 1) data
  | i, fragment :: fragments, value, byte :: data =>
    if i = fragment.offset then byte :: countBytes (i + 1) fragments value data
    else value :: countBytes (i + 1) (fragment :: fragments) (value + 1) data

/-- The hook, with the counter of the images, an `int`. -/
def encodeHook (idrCounter : ℕ) (image : EncodedImage) : ℕ × EncodedImage :=
  let fragments := fragments idrCounter image.data.length
  (idrCounter + 1, { image with
    data := countBytes 0 (fragments.map Prod.fst) 0 (writeHeaders fragments image.data)
    fragmentation := some (fragments.map Prod.fst) })

end FakeH264Encoder

/-! ## The decoder -/

/-- Without a delay. -/
structure FakeDecoder where
  width : ℕ := 320
  height : ℕ := 180

namespace FakeDecoder

def decode (decoder : FakeDecoder) (input : EncodedImage) (renderTimeMs : Int) : FakeDecoder × VideoFrame :=
  let decoder := if input.encodedWidth > 0 ∧ input.encodedHeight > 0 then
    { width := input.encodedWidth, height := input.encodedHeight } else decoder
  (decoder, ⟨decoder.width, decoder.height, input.timestamp, renderTimeMs⟩)

end FakeDecoder

namespace FakeH264Decoder

/-- The loop over the bytes, at least four. It fails a check, or reads past the end, as `none`. -/
def checkBytes : UInt8 → List UInt8 → Option Unit
  | value, 0 :: 0 :: 0 :: 1 :: _ :: data =>
    match data with
    | byte :: data => if byte = value then checkBytes (value + 1) data else none
    | [] => none
  | value, byte :: data => if byte = value then checkBytes (value + 1) data else none
  | _, [] => some ()

def decode (decoder : FakeDecoder) (input : EncodedImage) (renderTimeMs : Int) :
    Option (FakeDecoder × VideoFrame) := do
  if 0 < input.data.length ∧ input.data.length < 4 then none
  checkBytes 0 input.data
  return decoder.decode input renderTimeMs

end FakeH264Decoder

/-! ## Fragments that count on -/

/-- Bytes that count up from `value`. -/
def count (value : UInt8) : ℕ → List UInt8
  | 0 => []
  | n + 1 => value :: count (value + 1) n

theorem length_count {value : UInt8} {n : ℕ} : (count value n).length = n := by
  induction n generalizing value with
  | zero => rfl
  | succ n ih => rw [count, List.length_cons, ih]

/-- Each item starts where the one before it ends, the first of them at `value`. -/
def Chained {τ : Type} (first next : τ → UInt8) : UInt8 → List τ → Prop
  | _, [] => True
  | value, item :: items => first item = value ∧ Chained first next (next item) items

/-- Of items that start at different values, those that are left still are a chain just if none is
missing in front of another. -/
theorem chained_iff_none_missing {τ : Type} {first next : τ → UInt8} {value : UInt8} {items received : List τ}
    (h : Chained first next value items) (hfirst : (items.map first).Nodup)
    (hsub : received.Sublist items) : Chained first next value received ↔ received <+: items := by
  induction items generalizing value received with
  | nil =>
    rw [List.sublist_nil.mp hsub]
    exact iff_of_true trivial List.prefix_rfl
  | cons item items ih =>
    obtain ⟨hitem, hrest⟩ := h
    rw [List.map_cons, List.nodup_cons] at hfirst
    rcases received with _ | ⟨got, received⟩
    · exact iff_of_true trivial List.nil_prefix
    · rcases List.cons_sublist_cons'.mp hsub with hmissing | ⟨rfl, hgot⟩
      · have hmem : got ∈ items := hmissing.subset List.mem_cons_self
        constructor
        · intro hchained
          exact absurd (List.mem_map.mpr ⟨got, hmem, hchained.1.trans hitem.symm⟩) hfirst.1
        · intro hprefix
          obtain ⟨rfl, -⟩ := List.cons_prefix_cons.mp hprefix
          exact absurd (List.mem_map.mpr ⟨got, hmem, rfl⟩) hfirst.1
      · rw [Chained, List.cons_prefix_cons, ih hrest hfirst.2 hgot]
        exact ⟨fun hchained => ⟨rfl, hchained.2⟩, fun hprefix => ⟨hitem, hprefix.2⟩⟩

/-- The bytes of a fragment. -/
def slice (data : List UInt8) (fragment : Fragment) : List UInt8 :=
  (data.drop fragment.offset).take fragment.length

/-- The byte behind the NAL header. -/
def firstByte (data : List UInt8) (fragment : Fragment) : UInt8 := data.getD (fragment.offset + 1) 0

/-- The byte that is to come behind the fragment. -/
def nextByte (data : List UInt8) (fragment : Fragment) : UInt8 :=
  firstByte data fragment + UInt8.ofNat (fragment.length - 1)

/-- A fragment is a NAL header, and bytes that count. -/
def CountsOn (data : List UInt8) (fragment : Fragment) : Prop :=
  ∃ header n, slice data fragment = header :: count (firstByte data fragment) (n + 1) ∧
    nextByte data fragment = firstByte data fragment + UInt8.ofNat (n + 1)

/-- The stream of these fragments, each behind a start code, as they are when they come out of their
packets. -/
def byteStream (data : List UInt8) (fragments : List Fragment) : List UInt8 :=
  fragments.flatMap fun fragment => 0 :: 0 :: 0 :: 1 :: slice data fragment

namespace FakeH264Decoder

theorem checkBytes_byte {value byte : UInt8} {data : List UInt8}
    (h : ∀ header rest, byte = 0 → data ≠ 0 :: 0 :: 1 :: header :: rest) :
    checkBytes value (byte :: data) = if byte = value then checkBytes (value + 1) data else none :=
  checkBytes.eq_3 _ _ _ h

/-- Bytes that count pass, and look like no start code. -/
theorem checkBytes_count {value : UInt8} {n : ℕ} {rest : List UInt8} (hrest : rest[2]? ≠ some 1) :
    checkBytes value (count value n ++ rest) = checkBytes (value + UInt8.ofNat n) rest := by
  induction n generalizing value with
  | zero => simp [count]
  | succ n ih =>
    have hbyte : ∀ header tail, value = 0 → count (value + 1) n ++ rest ≠ 0 :: 0 :: 1 :: header :: tail := by
      rintro header tail rfl hcode
      cases n with
      | zero =>
        apply hrest
        rw [count, List.nil_append] at hcode
        rw [hcode]
        rfl
      | succ n => cases hcode
    rw [count, List.cons_append, checkBytes_byte hbyte, if_pos rfl, ih, UInt8.ofNat_add, UInt8.add_assoc,
      UInt8.add_comm 1]
    rfl

/-- The decoder accepts fragments that count on from each other, and no others. -/
theorem checkBytes_byteStream {data : List UInt8} {fragments : List Fragment} {value : UInt8}
    (hcounts : ∀ fragment ∈ fragments, CountsOn data fragment) :
    checkBytes value (byteStream data fragments) = some () ↔
      Chained (firstByte data) (nextByte data) value fragments := by
  induction fragments generalizing value with
  | nil => exact iff_of_true rfl trivial
  | cons fragment fragments ih =>
    obtain ⟨⟨header, n, hslice, hnext⟩, hrest⟩ := List.forall_mem_cons.mp hcounts
    have hcode : (byteStream data fragments)[2]? ≠ some 1 := by
      cases fragments with
      | nil => simp [byteStream]
      | cons => simp [byteStream]
    have hstream : byteStream data (fragment :: fragments) = 0 :: 0 :: 0 :: 1 :: header ::
        (firstByte data fragment :: count (firstByte data fragment + 1) n ++ byteStream data fragments) := by
      rw [byteStream, List.flatMap_cons, hslice]
      rfl
    have hcheck : checkBytes value (byteStream data (fragment :: fragments)) =
        if firstByte data fragment = value then
          checkBytes (value + 1) (count (firstByte data fragment + 1) n ++ byteStream data fragments)
        else none := by
      rw [hstream]
      rfl
    rw [hcheck, Chained]
    split
    · next hvalue =>
      rw [← hvalue, checkBytes_count hcode, ← ih hrest, hnext, UInt8.ofNat_add, UInt8.add_assoc,
        UInt8.add_comm 1]
      exact (and_iff_right rfl).symm
    · next hvalue => exact iff_of_false (by simp) fun hchained => hvalue hchained.1

end FakeH264Decoder

/-! ## The image -/

namespace FakeH264Encoder

/-- Fragments one behind the other from `offset` on, each given by its NAL header and the number of
bytes behind the first two. -/
def tiles : ℕ → List (UInt8 × ℕ) → List (Fragment × UInt8)
  | _, [] => []
  | offset, (header, n) :: parts => (⟨offset, n + 2⟩, header) :: tiles (offset + (n + 2)) parts

/-- Their bytes. -/
def counted : UInt8 → List (UInt8 × ℕ) → List UInt8
  | _, [] => []
  | value, (header, n) :: parts =>
    header :: count value (n + 1) ++ counted (value + UInt8.ofNat (n + 1)) parts

/-- Their first values. -/
def firsts : UInt8 → List (UInt8 × ℕ) → List UInt8
  | _, [] => []
  | value, (_, n) :: parts => value :: firsts (value + UInt8.ofNat (n + 1)) parts

theorem countBytes_none {i : ℕ} {value : UInt8} {data : List UInt8} :
    countBytes i [] value data = count value data.length := by
  induction data generalizing i value with
  | nil => rfl
  | cons byte data ih => rw [countBytes, ih, List.length_cons, count]

/-- The loop up to the next fragment. -/
theorem countBytes_append {i : ℕ} {fragment : Fragment} {fragments : List Fragment} {value : UInt8}
    {data rest : List UInt8} (h : fragment.offset = i + data.length) :
    countBytes i (fragment :: fragments) value (data ++ rest) =
      count value data.length ++
        countBytes fragment.offset (fragment :: fragments) (value + UInt8.ofNat data.length) rest := by
  induction data generalizing i value with
  | nil =>
    obtain rfl : i = fragment.offset := by simpa using h.symm
    simp [count]
  | cons byte data ih =>
    rw [List.length_cons] at h
    rw [List.cons_append, countBytes, if_neg (by omega), ih (by omega), List.length_cons, count,
      UInt8.ofNat_add, UInt8.add_assoc, UInt8.add_comm 1]
    rfl

/-- The loop up to the next of the fragments, or up to the end. -/
theorem countBytes_behind {i : ℕ} {parts : List (UInt8 × ℕ)} {value : UInt8} {data rest : List UInt8}
    (h : parts = [] → rest = []) :
    countBytes i ((tiles (i + data.length) parts).map Prod.fst) value (data ++ rest) =
      count value data.length ++ countBytes (i + data.length) ((tiles (i + data.length) parts).map Prod.fst)
        (value + UInt8.ofNat data.length) rest := by
  cases parts with
  | nil =>
    rw [h rfl, List.append_nil]
    show countBytes i [] value data = _ ++ []
    rw [countBytes_none, List.append_nil]
  | cons => exact countBytes_append rfl

/-- The headers are written, and the loop fills in the rest. -/
theorem countBytes_tiles {front rest : List UInt8} {value : UInt8} {parts : List (UInt8 × ℕ)}
    (hlength : rest.length = (parts.map fun part => part.2 + 2).sum) :
    ∃ written, writeHeaders (tiles front.length parts) (front ++ rest) = front ++ written ∧
      written.length = rest.length ∧
      countBytes front.length ((tiles front.length parts).map Prod.fst) value written =
        counted value parts := by
  induction parts generalizing front rest value with
  | nil =>
    rw [List.eq_nil_of_length_eq_zero hlength]
    exact ⟨[], rfl, rfl, rfl⟩
  | cons part parts ih =>
    obtain ⟨header, n⟩ := part
    rw [List.map_cons, List.sum_cons] at hlength
    -- the bytes of this fragment, and those of the others
    have hsplit : ∃ byte data rest', rest = byte :: (data ++ rest') ∧ data.length = n + 1 := by
      rcases rest with _ | ⟨byte, rest⟩
      · rw [List.length_nil] at hlength
        omega
      · refine ⟨byte, rest.take (n + 1), rest.drop (n + 1), by rw [List.take_append_drop], ?_⟩
        rw [List.length_cons] at hlength
        rw [List.length_take]
        omega
    obtain ⟨byte, data, rest', rfl, hdata⟩ := hsplit
    have hrest : rest'.length = (parts.map fun part => part.2 + 2).sum := by
      rw [List.length_cons, List.length_append] at hlength
      omega
    have hset : (front ++ byte :: (data ++ rest')).set front.length header =
        (front ++ header :: data) ++ rest' := by simp
    have hfront : front.length + (n + 2) = (front ++ header :: data).length := by
      rw [List.length_append, List.length_cons]
      omega
    have hnext : front.length + (n + 2) = front.length + 1 + data.length := by omega
    have hothers : ∃ written, writeHeaders (tiles (front ++ header :: data).length parts)
        ((front ++ header :: data) ++ rest') = (front ++ header :: data) ++ written ∧
        written.length = rest'.length ∧
        countBytes (front ++ header :: data).length
          ((tiles (front ++ header :: data).length parts).map Prod.fst) (value + UInt8.ofNat (n + 1))
          written = counted (value + UInt8.ofNat (n + 1)) parts := ih hrest
    obtain ⟨written, hfold, hwritten, hcount⟩ := hothers
    refine ⟨header :: (data ++ written), ?_, by simp [hwritten], ?_⟩
    · rw [tiles, writeHeaders, List.foldl_cons, hset, hfront]
      exact hfold.trans (by simp)
    · have hnone : parts = [] → written = [] := by
        rintro rfl
        rw [List.map_nil, List.sum_nil] at hrest
        exact List.eq_nil_of_length_eq_zero (hwritten.trans hrest)
      rw [tiles, List.map_cons, countBytes, if_pos rfl, hnext, countBytes_behind hnone, ← hnext, hfront,
        hdata, hcount]
      rfl

/-- Fragments that count on from each other, and are the whole image. -/
structure Tiled (data : List UInt8) (value : UInt8) (fragments : List Fragment) (parts : List (UInt8 × ℕ)) :
    Prop where
  counts : ∀ fragment ∈ fragments, CountsOn data fragment
  first : fragments.map (firstByte data) = firsts value parts
  chained : Chained (firstByte data) (nextByte data) value fragments
  bytes : fragments.flatMap (slice data) = counted value parts

theorem tiled_counted {front : List UInt8} {value : UInt8} {parts : List (UInt8 × ℕ)} :
    Tiled (front ++ counted value parts) value ((tiles front.length parts).map Prod.fst) parts := by
  induction parts generalizing front value with
  | nil =>
    constructor
    · intro fragment hfragment
      cases hfragment
    · rfl
    · trivial
    · rfl
  | cons part parts ih =>
    obtain ⟨header, n⟩ := part
    let rest := counted (value + UInt8.ofNat (n + 1)) parts
    let data := front ++ counted value ((header, n) :: parts)
    let fragment : Fragment := ⟨front.length, n + 2⟩
    have hfront : front.length + (n + 2) = (front ++ header :: count value (n + 1)).length := by
      rw [List.length_append, List.length_cons, length_count]
    have hdata : data = (front ++ header :: count value (n + 1)) ++ rest := by
      simp [data, rest, counted]
    have hrest : Tiled ((front ++ header :: count value (n + 1)) ++ rest) (value + UInt8.ofNat (n + 1))
        ((tiles (front ++ header :: count value (n + 1)).length parts).map Prod.fst) parts := ih
    rw [← hfront] at hrest
    have hslice : slice data fragment = header :: count value (n + 1) := by
      show (data.drop front.length).take (n + 2) = _
      rw [hdata, List.append_assoc, List.drop_left' rfl, List.take_left' (by simp [length_count])]
    have hfirst : firstByte data fragment = value := by
      show data.getD (front.length + 1) 0 = value
      rw [hdata, count]
      simp
    have hnext : nextByte data fragment = value + UInt8.ofNat (n + 1) := by
      rw [nextByte, hfirst]
      rfl
    show Tiled data value (fragment :: (tiles (front.length + (n + 2)) parts).map Prod.fst) _
    rw [← hdata] at hrest
    constructor
    · refine List.forall_mem_cons.mpr ⟨⟨header, n, ?_, ?_⟩, hrest.counts⟩
      · rw [hslice, hfirst]
      · rw [hnext, hfirst]
    · rw [List.map_cons, hfirst, hrest.first]
      rfl
    · rw [Chained, hnext]
      exact ⟨hfirst, hrest.chained⟩
    · rw [List.flatMap_cons, hslice, hrest.bytes]
      rfl

/-- The parts of an image. -/
def parts (currentIdrCounter size : ℕ) : List (UInt8 × ℕ) :=
  if currentIdrCounter % kIdrFrequency = 0 ∧ size > kSpsSize + kPpsSize + 1 then
    [(0x67, 6), (0x68, 9), (0x65, size - 21)]
  else [(0x41, size - 2)]

theorem fragments_eq {currentIdrCounter size : ℕ} (hsize : 14 ≤ size) :
    fragments currentIdrCounter size = tiles 0 (parts currentIdrCounter size) ∧
      size = ((parts currentIdrCounter size).map fun part => part.2 + 2).sum := by
  unfold fragments parts
  split
  · next hidr =>
    obtain ⟨-, hlarge⟩ := hidr
    simp only [kSpsSize, kPpsSize] at hlarge ⊢
    have hslice : size - (8 + 11) = size - 21 + 2 := by omega
    rw [hslice]
    refine ⟨rfl, ?_⟩
    simp only [List.map_cons, List.map_nil, List.sum_cons, List.sum_nil]
    omega
  · have hslice : size = size - 2 + 2 := by omega
    refine ⟨?_, ?_⟩
    · rw [hslice]
      rfl
    · simp only [List.map_cons, List.map_nil, List.sum_cons, List.sum_nil]
      omega

/-- No two fragments of an image start at one value. -/
theorem nodup_firsts {currentIdrCounter size : ℕ} : (firsts 0 (parts currentIdrCounter size)).Nodup := by
  unfold parts
  split
  · show [0, 7, (17 : UInt8)].Nodup
    decide
  · show [(0 : UInt8)].Nodup
    decide

theorem length_counted {value : UInt8} {parts : List (UInt8 × ℕ)} :
    (counted value parts).length = (parts.map fun part => part.2 + 2).sum := by
  induction parts generalizing value with
  | nil => rfl
  | cons part parts ih =>
    rw [counted, List.length_append, List.length_cons, length_count, ih, List.map_cons, List.sum_cons]

/-- What the hook makes of an image. -/
theorem encodeHook_tiled {idrCounter : ℕ} {image : EncodedImage} (hsize : 14 ≤ image.data.length) :
    (encodeHook idrCounter image).2.data.length = image.data.length ∧
      Tiled (encodeHook idrCounter image).2.data 0
        ((fragments idrCounter image.data.length).map Prod.fst) (parts idrCounter image.data.length) ∧
      (encodeHook idrCounter image).2.data = counted 0 (parts idrCounter image.data.length) := by
  obtain ⟨hfragments, hlength⟩ : fragments idrCounter image.data.length =
    tiles 0 (parts idrCounter image.data.length) ∧ _ := fragments_eq hsize
  have hcounted : ∃ written, writeHeaders (tiles 0 (parts idrCounter image.data.length)) ([] ++ image.data) =
      [] ++ written ∧ written.length = image.data.length ∧
      countBytes 0 ((tiles 0 (parts idrCounter image.data.length)).map Prod.fst) 0 written =
        counted 0 (parts idrCounter image.data.length) := countBytes_tiles hlength
  obtain ⟨written, hwrite, hwritten, hcount⟩ := hcounted
  have hdata : (encodeHook idrCounter image).2.data = counted 0 (parts idrCounter image.data.length) := by
    show countBytes 0 ((fragments idrCounter image.data.length).map Prod.fst) 0
      (writeHeaders (fragments idrCounter image.data.length) image.data) = _
    rw [hfragments]
    exact (congrArg _ hwrite).trans hcount
  have htiled : Tiled ([] ++ counted 0 (parts idrCounter image.data.length)) 0
      ((tiles 0 (parts idrCounter image.data.length)).map Prod.fst) (parts idrCounter image.data.length) :=
    tiled_counted
  refine ⟨?_, ?_, hdata⟩
  · rw [hdata, length_counted, ← hlength]
  · rw [hdata, hfragments]
    exact htiled

/-- What holds with any hook that keeps the length holds with this one. -/
theorem keepsLength : FakeEncoder.KeepsLength encodeHook := fun _ _ hsize => (encodeHook_tiled hsize).1

theorem length_fragments {currentIdrCounter size : ℕ} : (fragments currentIdrCounter size).length =
    if currentIdrCounter % 10 = 0 ∧ size > 20 then 3 else 1 := by
  rw [fragments, apply_ite List.length]
  rfl

/-- The hook counts the images. -/
theorem hooked_spec {idrCounter : ℕ} {plain : List EncodedImage} :
    (FakeEncoder.hooked encodeHook idrCounter plain).1 = idrCounter + plain.length ∧
      ∀ k image, (FakeEncoder.hooked encodeHook idrCounter plain).2[k]? = some image →
        ∃ before ∈ plain, image = (encodeHook (idrCounter + k) before).2 := by
  induction plain generalizing idrCounter with
  | nil => exact ⟨rfl, fun k image h => by cases h⟩
  | cons before plain ih =>
    obtain ⟨hcounter, himages⟩ :
      (FakeEncoder.hooked encodeHook (idrCounter + 1) plain).1 = idrCounter + 1 + plain.length ∧ _ := ih
    constructor
    · refine hcounter.trans ?_
      rw [List.length_cons]
      omega
    · intro k image himage
      cases k with
      | zero =>
        cases himage
        exact ⟨before, List.mem_cons_self, rfl⟩
      | succ k =>
        obtain ⟨before', hbefore', hhook⟩ := himages k image himage
        rw [Nat.add_assoc, Nat.add_comm 1] at hhook
        exact ⟨before', List.mem_cons_of_mem _ hbefore', hhook⟩

end FakeH264Encoder

/-! ## A run -/

namespace EncoderRun

open FakeEncoder

variable {α : Type} {A : BitrateAllocation α} {s s' : EncoderRun α ℕ} {a : Act α}

/-- The hook has made every image so far, in their order. -/
structure Numbered (s : EncoderRun α ℕ) : Prop where
  own : s.own = (images s.frames).length
  images : ∀ k image, (images s.frames)[k]? = some image →
    ∃ before : EncodedImage, 14 ≤ before.data.length ∧ image = (FakeH264Encoder.encodeHook k before).2

theorem numbered_step (h : Numbered s) (hs : step A FakeH264Encoder.encodeHook s a = some s') :
    Numbered s' := by
  rcases step_cases hs with ⟨timestamp, frameTypes, accepts, frame, rfl, hencode, -, -, hframes⟩ |
    ⟨hframes, hown, -, -, -⟩
  · obtain ⟨plain, hplain, hhooked⟩ := encode_images hencode
    obtain ⟨hcounter, hnew⟩ : (hooked FakeH264Encoder.encodeHook s.own plain).1 = s.own + plain.length ∧ _ :=
      FakeH264Encoder.hooked_spec
    have hlength : (hooked FakeH264Encoder.encodeHook s.own plain).2.length = plain.length := length_hooked
    rw [hhooked] at hcounter hnew hlength
    have himages : EncoderRun.images s'.frames = EncoderRun.images s.frames ++ frame.images := by
      rw [hframes, EncoderRun.images, List.flatMap_append, List.flatMap_singleton, EncoderRun.images]
    constructor
    · rw [himages, List.length_append, ← h.own, hlength]
      exact hcounter
    · intro k image himage
      rw [himages] at himage
      rcases Nat.lt_or_ge k (EncoderRun.images s.frames).length with hk | hk
      · rw [List.getElem?_append_left hk] at himage
        exact h.images k image himage
      · rw [List.getElem?_append_right hk] at himage
        obtain ⟨before, hbefore, hhook⟩ := hnew _ image himage
        obtain ⟨i, -, stream, size, -, hsize, rfl⟩ := mem_layerImages (hplain.subset hbefore)
        rw [h.own, Nat.add_sub_cancel' hk] at hhook
        refine ⟨_, ?_, hhook⟩
        rw [fillImage, length_writeCounter, List.length_replicate]
        exact hsize
  · constructor
    · rw [hown, hframes]
      exact h.own
    · rw [hframes]
      exact h.images

/-- In every run of the encoder: every tenth image, if it has more than twenty bytes, is three
fragments and any other is one, which are the whole image. The decoder accepts a stream of some of
the fragments just if none is missing in front of another; it then shows the frame. -/
theorem missing_fragment_is_found (A : BitrateAllocation α) (config : VideoCodec)
    (parameters : RateControlParameters α) (as : List (Act α)) (s : EncoderRun α ℕ)
    (hrun : Machine.run (step A FakeH264Encoder.encodeHook) (initial config parameters 0) as = some s)
    (k : ℕ) (image : EncodedImage) (himage : (images s.frames)[k]? = some image) :
    ∃ fragments, image.fragmentation = some fragments ∧
      fragments.length = (if k % 10 = 0 ∧ image.data.length > 20 then 3 else 1) ∧
      fragments.flatMap (slice image.data) = image.data ∧
      ∀ (received : List Fragment) (decoder : FakeDecoder) (renderTimeMs : Int),
        received.Sublist fragments →
          FakeH264Decoder.decode decoder { image with data := byteStream image.data received } renderTimeMs =
            if received <+: fragments then some (decoder.decode image renderTimeMs) else none := by
  have hnumbered : Numbered s := by
    refine Machine.invariant (fun _ _ _ h hs => numbered_step h hs) ?_ hrun
    exact ⟨rfl, fun k image h => by cases h⟩
  obtain ⟨before, hsize, rfl⟩ := hnumbered.images k image himage
  obtain ⟨hlength, htiled, hdata⟩ : (FakeH264Encoder.encodeHook k before).2.data.length = _ ∧ _ :=
    FakeH264Encoder.encodeHook_tiled hsize
  refine ⟨_, rfl, ?_, htiled.bytes.trans hdata.symm, fun received decoder renderTimeMs hsub => ?_⟩
  · rw [List.length_map, FakeH264Encoder.length_fragments, hlength]
  · let data := (FakeH264Encoder.encodeHook k before).2.data
    have hcounts : ∀ fragment ∈ received, CountsOn data fragment :=
      fun fragment hfragment => htiled.counts fragment (hsub.subset hfragment)
    have hnodup : (((FakeH264Encoder.fragments k before.data.length).map Prod.fst).map
        (firstByte data)).Nodup := by
      rw [htiled.first]
      exact FakeH264Encoder.nodup_firsts
    have hcheck : FakeH264Decoder.checkBytes 0 (byteStream data received) = some () ↔
        received <+: (FakeH264Encoder.fragments k before.data.length).map Prod.fst :=
      (FakeH264Decoder.checkBytes_byteStream hcounts).trans
        (chained_iff_none_missing htiled.chained hnodup hsub)
    have hguard : ¬ (0 < (byteStream data received).length ∧ (byteStream data received).length < 4) := by
      cases received with
      | nil => simp [byteStream]
      | cons => simp [byteStream]
    show (do
      if 0 < (byteStream data received).length ∧ (byteStream data received).length < 4 then none
      FakeH264Decoder.checkBytes 0 (byteStream data received)
      some (decoder.decode (FakeH264Encoder.encodeHook k before).2 renderTimeMs)) = _
    rw [if_neg hguard]
    split
    · next hprefix =>
      rw [hcheck.mpr hprefix]
      rfl
    · next hmissing =>
      have hnone : FakeH264Decoder.checkBytes 0 (byteStream data received) = none :=
        Option.eq_none_iff_forall_ne_some.mpr fun _ h => hmissing (hcheck.mp h)
      rw [hnone]
      rfl

/-- An image of three fragments, of which the second is lost. -/
theorem lost_pps_is_found : ∃ s : EncoderRun UInt32 ℕ, ∃ image fragments,
    (images s.frames)[0]? = some image ∧ image.fragmentation = some fragments ∧ fragments.length = 3 ∧
      FakeH264Decoder.decode {} { image with data := byteStream image.data (fragments.eraseIdx 1) } 0 =
        none := by
  let start : EncoderRun UInt32 ℕ := initial ⟨3, 10, [⟨16, 8, 1⟩]⟩ ⟨3000, 10⟩ 0
  have hrun : ((Machine.run (step sameBitrate FakeH264Encoder.encodeHook) start
      [.encode 100 none fun _ => true]).bind fun s => (images s.frames)[0]?.bind fun image =>
        image.fragmentation.map fun fragments =>
          (image.data.length, decide (fragments.eraseIdx 1 <+: fragments))) =
      some (185, false) := by decide +kernel
  obtain ⟨s, hs, hrun⟩ := Option.bind_eq_some_iff.mp hrun
  obtain ⟨image, himage, hrun⟩ := Option.bind_eq_some_iff.mp hrun
  obtain ⟨fragments, hfragments, hfacts⟩ := Option.map_eq_some_iff.mp hrun
  obtain ⟨hlength, hmissing⟩ := Prod.mk.inj hfacts
  obtain ⟨fragments', hfragments', hthree, -, hdecode⟩ :=
    missing_fragment_is_found sameBitrate _ _ _ s hs 0 image himage
  obtain rfl := Option.some.inj (hfragments'.symm.trans hfragments)
  rw [hlength] at hthree
  refine ⟨s, image, fragments', himage, hfragments, hthree, ?_⟩
  rw [hdecode _ _ _ (List.eraseIdx_sublist ..), if_neg (of_decide_eq_false hmissing)]

end EncoderRun

end WebrtcGccNs3.Video
