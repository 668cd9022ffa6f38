import WorkflowLint.Proofs.Server.Headers
import Mathlib.Data.List.Forall2
/-!
# Streams of frames

A stream of packets is read as their bodies (`readAll_packets`), and a packet that is cut off breaks
the stream: wherever the cut is, before it the reader has met no blank line and behind one too few
bytes (`next_cut`). As what is written is a packet, the frames written are read back as the values,
and a stream cut inside a frame as the values before it (`round_trip`).
-/

namespace WorkflowLint.Frame

variable {closed started : Bool} {length : Option Nat} {s rest : List UInt8}

/-! ## Reading on -/

theorem readAll_body {value : Except Json.SyntaxError Json} (h : next closed s = .body value rest) :
    readAll closed s = (value :: (readAll closed rest).1, (readAll closed rest).2) := by
  rw [readAll]
  split <;> rename_i hnext <;> rw [h] at hnext <;> cases hnext
  rfl

theorem readAll_broken {fault : Fault} (h : next closed s = .broken fault) :
    readAll closed s = ([], .broken fault) := by
  rw [readAll]
  split <;> rename_i hnext <;> rw [h] at hnext <;> cases hnext
  rfl

theorem readAll_ended (h : next closed s = .ended) : readAll closed s = ([], .ended) := by
  rw [readAll]
  split <;> rename_i hnext <;> rw [h] at hnext <;> cases hnext

theorem headers_nil :
    headers true length started [] = if started then .broken .cutHeaders else .ended := by
  rw [headers]
  rfl

theorem readAll_nil : readAll true [] = ([], .ended) :=
  readAll_ended (by rw [next, headers_nil]; rfl)

theorem readAll_packets (ps : List Packet) (closed : Bool) (rest : List UInt8) :
    readAll closed (ps.flatMap Packet.bytes ++ rest) =
      (ps.map (Json.parse ·.body) ++ (readAll closed rest).1, (readAll closed rest).2) := by
  induction ps with
  | nil => rfl
  | cons p ps ih =>
    rw [List.flatMap_cons, List.append_assoc, readAll_body (next_packet p closed _), ih]
    rfl

/-! ## Cut streams -/

/-- What comes before a cut either reaches past a first part or is within it. -/
theorem prefix_append_cases {α : Type} {q a b : List α} (h : q <+: a ++ b) :
    q <+: a ∨ ∃ r, q = a ++ r ∧ r <+: b := by
  obtain ⟨t, ht⟩ := h
  obtain ⟨r, hr, -⟩ | ⟨r, hr, hb⟩ := List.append_eq_append_iff.mp ht
  · exact .inl ⟨r, hr.symm⟩
  · exact .inr ⟨r, hr, t, hb.symm⟩

theorem headers_cutLine (length : Option Nat) (hline : 0x0A ∉ s) (h : s ≠ [] ∨ started = true) :
    (∃ f, headers true length started s = .broken f) ∨
      ∃ n, length = some n ∧ headers true length started s = .block n [] := by
  by_cases hs : s = []
  · subst hs
    rw [headers_nil, if_pos (h.resolve_left (· rfl))]
    exact .inl ⟨_, rfl⟩
  · have htake := takeLine_closed hline
    rw [if_neg hs] at htake
    rw [headers_line htake]
    split
    · exact .inl ⟨_, rfl⟩
    · split
      · cases length with
        | none => exact .inl ⟨_, rfl⟩
        | some n => exact .inr ⟨n, rfl, rfl⟩
      · split
        · exact .inl ⟨_, headers_nil⟩
        · exact .inl ⟨_, headers_nil⟩
        · exact .inl ⟨_, rfl⟩

theorem cut_lineBytes {q : List UInt8} {cs : List Char} (hcs : '\n' ∉ cs)
    (h : q <+: lineBytes cs ++ rest) : 0x0A ∉ q ∨ ∃ r, q = lineBytes cs ++ r ∧ r <+: rest := by
  rw [lineBytes, List.append_assoc] at h
  obtain h | ⟨r, rfl, hr⟩ := prefix_append_cases h
  · exact .inl fun hmem => Text.Utf8.lineFeed_not_mem_encode hcs (h.subset hmem)
  · rw [List.singleton_append, List.prefix_cons_iff] at hr
    obtain rfl | ⟨r, rfl, hr⟩ := hr
    · rw [List.append_nil]
      exact .inl (Text.Utf8.lineFeed_not_mem_encode hcs)
    · exact .inr ⟨r, by rw [lineBytes, List.append_assoc, List.singleton_append], hr⟩

/-- Reading a block off the first part of a packet: the stream breaks, or what follows is too short
for the body. -/
theorem headers_cut {n : Nat} {ending : List Char} {body q : List UInt8} (hblank : Text.allBlank ending)
    (hending : '\n' ∉ ending) (hn : body.length = n) (hpos : 0 < n) (hs : List Header)
    (hgives : ∀ h ∈ hs, ∀ m ∈ h.gives, m = n) (hlength : ∀ m ∈ length, m = n)
    (hstart : q ≠ [] ∨ started = true)
    (hq : q <+: hs.flatMap (lineBytes ·.text) ++ (lineBytes ending ++ body))
    (hproper : q ≠ hs.flatMap (lineBytes ·.text) ++ (lineBytes ending ++ body)) :
    (∃ f, headers true length started q = .broken f) ∨
      ∃ rest, headers true length started q = .block n rest ∧ rest.length < n := by
  -- a cut inside a line is the same for all lines
  have hcut : ∀ {length : Option Nat}, (∀ m ∈ length, m = n) → ∀ {started : Bool} {q : List UInt8},
      0x0A ∉ q → q ≠ [] ∨ started = true →
      (∃ f, headers true length started q = .broken f) ∨
        ∃ rest, headers true length started q = .block n rest ∧ rest.length < n := by
    intro length hlength started q hq hstart
    obtain hbroken | ⟨m, hm, hblock⟩ := headers_cutLine length hq hstart
    · exact .inl hbroken
    · rw [hlength m hm] at hblock
      exact .inr ⟨[], hblock, hpos⟩
  induction hs generalizing length started q with
  | nil =>
    obtain hq | ⟨r, rfl, hr⟩ := cut_lineBytes hending hq
    · exact hcut hlength hq hstart
    · cases length with
      | none =>
        refine .inl ⟨.noLength, ?_⟩
        rw [headers_line (takeLine_lineBytes hending r), decode?_lineBytes]
        simp only [trim_append_lineFeed, Text.trim_of_blank hblank]
      | some m =>
        obtain rfl := hlength m rfl
        refine .inr ⟨r, headers_ending hblank hending m, ?_⟩
        rw [← hn]
        exact lt_of_le_of_ne hr.length_le fun hlen => hproper (by rw [hr.eq_of_length hlen]; rfl)
  | cons h hs ih =>
    rw [List.flatMap_cons, List.append_assoc] at hq hproper
    obtain hq | ⟨r, rfl, hr⟩ := cut_lineBytes h.oneLine hq
    · exact hcut hlength hq hstart
    · rw [headers_header]
      refine ih (fun h' hh' => hgives h' (List.mem_cons_of_mem _ hh')) (fun m hm => ?_) (.inr rfl) hr
        fun heq => hproper (by rw [heq])
      rcases Option.or_eq_some_iff.mp hm with hm | ⟨-, hm⟩
      · exact hgives h List.mem_cons_self m hm
      · exact hlength m hm

namespace Packet

/-- No header gives another length than the body has. -/
def Plain (p : Packet) : Prop := ∀ h ∈ p.headers, ∀ n ∈ h.gives, n = p.body.length

end Packet

theorem next_cut {p : Packet} (hp : p.Plain) (hbody : p.body ≠ []) {q : List UInt8} (hq : q <+: p.bytes)
    (hne : q ≠ []) (hproper : q ≠ p.bytes) : ∃ f, next true q = .broken f := by
  rw [Packet.bytes, Packet.block, List.append_assoc] at hq hproper
  have hpos := List.length_pos_iff.mpr hbody
  have hcut : (∃ f, headers true none false q = .broken f) ∨
      ∃ r, headers true none false q = .block p.body.length r ∧ r.length < p.body.length :=
    headers_cut p.blank p.oneLine rfl hpos p.headers hp (fun _ hm => absurd hm (Option.not_mem_none _))
      (.inl hne) hq hproper
  obtain ⟨f, hf⟩ | ⟨r, hr, hlen⟩ := hcut
  · exact ⟨f, by rw [next, hf]⟩
  · have hfits := p.fits
    refine ⟨.cutBody, ?_⟩
    rw [next, hr]
    simp only
    rw [if_neg (by omega), if_pos hlen, if_pos trivial]

/-! ## Frames of values -/

/-- Bytes that carry a value: a packet with its text as the body, however its headers are spelled and
whatever else they say. -/
def Carries (v : Json) (bs : List UInt8) : Prop :=
  ∃ p : Packet, p.Plain ∧ p.body = Json.toBytes v ∧ p.bytes = bs

def writtenHeader (n : Nat) (hn : n < 0x10000000000000000) : Header where
  text := "Content-Length".toList ++ ':' :: (' ' :: (Nat.toDigits 10 n ++ ['\r']))
  gives := some n
  line := .length ⟨rfl, ⟨[], [], rfl, rfl, (List.append_nil _).symm⟩, ⟨0, .inl rfl⟩, hn,
    ⟨[' '], ['\r'], rfl, rfl, rfl⟩⟩
  oneLine := by
    intro hmem
    simp only [List.mem_append, List.mem_cons, List.not_mem_nil, or_false] at hmem
    obtain hmem | hmem | hmem | hmem | hmem := hmem
    · exact absurd hmem (by decide)
    · exact absurd hmem (by decide)
    · exact absurd hmem (by decide)
    · exact absurd (Nat.isDigit_of_mem_toDigits (by decide) (by decide) hmem) (by decide)
    · exact absurd hmem (by decide)

theorem text_writtenHeader (n : Nat) (hn : n < 0x10000000000000000) : (writtenHeader n hn).text =
    "Content-Length".toList ++ ':' :: (' ' :: (Nat.toDigits 10 n ++ ['\r'])) := rfl

theorem toList_lead (n : Nat) (hn : n < 0x10000000000000000) :
    (s!"Content-Length: {n}\r\n\r\n").toList = (writtenHeader n hn).text ++ ['\n'] ++ ['\r', '\n'] := by
  have hlead : "Content-Length: ".toList = "Content-Length".toList ++ [':', ' '] := rfl
  have hend : "\r\n\r\n".toList = ['\r', '\n', '\r', '\n'] := rfl
  change (("Content-Length: " ++ n.repr) ++ "\r\n\r\n").toList = _
  rw [String.toList_append, String.toList_append, Nat.toList_repr, hlead, hend, text_writtenHeader]
  simp only [List.append_assoc, List.cons_append, List.nil_append]

/-- A body behind the header line that is written. -/
def Packet.ofBody (body : List UInt8) (hfit : body.length ≤ maxLength) : Packet where
  headers := [writtenHeader body.length (lt_of_le_of_lt hfit (by decide))]
  ending := ['\r']
  body := body
  blank := rfl
  oneLine := by decide
  counted := rfl
  fits := hfit

theorem bytes_ofBody {v : Json} (hfit : (Json.toBytes v).length ≤ maxLength) :
    (Packet.ofBody (Json.toBytes v) hfit).bytes = write v := by
  have hn : (Json.toBytes v).length < 0x10000000000000000 := lt_of_le_of_lt hfit (by decide)
  have hwrite : write v = Text.Utf8.encode ((writtenHeader _ hn).text ++ ['\n'] ++ ['\r', '\n']) ++
      Json.toBytes v := by
    rw [write, Text.Utf8.ofString, toList_lead]
  have hblock : (Packet.ofBody (Json.toBytes v) hfit).block =
      lineBytes (writtenHeader _ hn).text ++ lineBytes ['\r'] := by
    rw [Packet.block, Packet.ofBody, List.flatMap_singleton]
  have hend : Text.Utf8.encode ['\r', '\n'] = lineBytes ['\r'] := rfl
  rw [hwrite, Text.Utf8.encode_append, Text.Utf8.encode_append, hend, Packet.bytes, hblock]
  rfl

theorem carries_write {v : Json} (hfit : (Json.toBytes v).length ≤ maxLength) :
    Carries v (write v) := by
  refine ⟨.ofBody _ hfit, fun h hh m hm => ?_, rfl, bytes_ofBody hfit⟩
  obtain rfl := List.mem_singleton.mp hh
  exact (Option.some.inj hm).symm

variable {vs : List Json} {frames : List (List UInt8)}

theorem readAll_carries {v : Json} {bs : List UInt8} (h : Carries v bs)
    (hback : Json.parse (Json.toBytes v) = .ok v) (rest : List UInt8) :
    readAll closed (bs ++ rest) = (.ok v :: (readAll closed rest).1, (readAll closed rest).2) := by
  obtain ⟨p, -, hbody, rfl⟩ := h
  rw [readAll_body (next_packet p closed rest), hbody, hback]

theorem readAll_frames (h : List.Forall₂ Carries vs frames)
    (hback : ∀ v ∈ vs, Json.parse (Json.toBytes v) = .ok v) :
    readAll true frames.flatten = (vs.map .ok, .ended) := by
  induction h with
  | nil => exact readAll_nil
  | cons hv _ ih =>
    obtain ⟨hfirst, hmore⟩ := List.forall_mem_cons.mp hback
    rw [List.flatten_cons, readAll_carries hv hfirst, ih hmore]
    rfl

theorem next_cutFrame {v : Json} {bs q : List UInt8} (h : Carries v bs)
    (hback : Json.parse (Json.toBytes v) = .ok v) (hq : q <+: bs) (hne : q ≠ []) (hproper : q ≠ bs) :
    ∃ f, next true q = .broken f := by
  obtain ⟨p, hplain, hbody, rfl⟩ := h
  refine next_cut hplain (fun hnil => ?_) hq hne hproper
  rw [← hbody, hnil] at hback
  cases hback

/-- Of a stream cut inside a frame the frames before it are read. -/
theorem readAll_cut (h : List.Forall₂ Carries vs frames)
    (hback : ∀ v ∈ vs, Json.parse (Json.toBytes v) = .ok v) {q : List UInt8} (hq : q <+: frames.flatten)
    (hinside : ∀ k, q ≠ (frames.take k).flatten) :
    ∃ k f, (frames.take k).flatten <+: q ∧ q <+: (frames.take (k + 1)).flatten ∧
      readAll true q = ((vs.take k).map .ok, .broken f) := by
  induction h generalizing q with
  | nil => exact absurd (List.prefix_nil.mp hq) (hinside 0)
  | @cons v bs vs frames hv _ ih =>
    obtain ⟨hfirst, hmore⟩ := List.forall_mem_cons.mp hback
    rw [List.flatten_cons] at hq
    obtain hq | ⟨r, rfl, hr⟩ := prefix_append_cases hq
    · obtain ⟨f, hf⟩ := next_cutFrame hv hfirst hq (hinside 0)
        fun heq => hinside 1 (by rw [heq, List.take_succ_cons, List.take_zero, List.flatten_singleton])
      refine ⟨0, f, List.nil_prefix, ?_, readAll_broken hf⟩
      rwa [List.take_succ_cons, List.take_zero, List.flatten_singleton]
    · obtain ⟨k, f, hbefore, hafter, hread⟩ := ih hmore hr
        fun k heq => hinside (k + 1) (by rw [heq, List.take_succ_cons, List.flatten_cons])
      refine ⟨k + 1, f, ?_, ?_, ?_⟩
      · rwa [List.take_succ_cons, List.flatten_cons, List.prefix_append_right_inj]
      · rwa [List.take_succ_cons, List.flatten_cons, List.prefix_append_right_inj]
      · rw [readAll_carries hv hfirst, hread]
        rfl

/-- Frames are read back as the values they carry, written ones among them, and then the stream ends.
A stream cut inside a frame is read as the values of the frames before it, and breaks there. -/
theorem round_trip (hfit : ∀ v ∈ vs, (Json.toBytes v).length ≤ maxLength)
    (hback : ∀ v ∈ vs, Json.parse (Json.toBytes v) = .ok v) :
    readAll true (writeAll vs) = (vs.map .ok, .ended) ∧
      writeAll vs = (vs.map write).flatten ∧ List.Forall₂ Carries vs (vs.map write) ∧
      ∀ frames, List.Forall₂ Carries vs frames →
        readAll true frames.flatten = (vs.map .ok, .ended) ∧
          ∀ q, q <+: frames.flatten → (∀ k, q ≠ (frames.take k).flatten) →
            ∃ k f, (frames.take k).flatten <+: q ∧ q <+: (frames.take (k + 1)).flatten ∧
              readAll true q = ((vs.take k).map .ok, .broken f) := by
  have hwritten : List.Forall₂ Carries vs (vs.map write) :=
    List.forall₂_map_right_iff.mpr (List.forall₂_same.mpr fun v hv => carries_write (hfit v hv))
  refine ⟨?_, List.flatMap_def, hwritten, fun frames hframes =>
    ⟨readAll_frames hframes hback, fun q hq hinside => readAll_cut hframes hback hq hinside⟩⟩
  rw [writeAll, List.flatMap_def]
  exact readAll_frames hwritten hback

/-- A header line about something else. -/
def traceHeader : Header where
  text := "X-Häder".toList ++ ':' :: " a:b\r".toList
  gives := none
  line := .other (otherLine_colon (by decide) (by decide))
  oneLine := by decide

/-- A length in capitals, among blanks and behind a zero. -/
def loudHeader : Header where
  text := "CONTENT-Length ".toList ++ ':' :: "\t011 \r".toList
  gives := some 11
  line :=
    have hkey : Text.Amid "CONTENT-Length".toList "CONTENT-Length ".toList :=
      ⟨[], [' '], rfl, rfl, rfl⟩
    have hvalue : Text.Amid "011".toList "\t011 \r".toList :=
      ⟨['\t'], [' ', '\r'], rfl, rfl, rfl⟩
    .length (.mk (by decide) hkey ⟨1, .inl rfl⟩ (by decide) hvalue)
  oneLine := by decide

/-- A list behind both of them. -/
def loudPacket : Packet where
  headers := [traceHeader, loudHeader]
  ending := ['\r']
  body := Json.toBytes (.array [.null, .bool true])
  blank := rfl
  oneLine := by decide
  counted := by decide +kernel
  fits := by decide +kernel

example : loudPacket.bytes =
    Text.Utf8.ofString "X-Häder: a:b\r\nCONTENT-Length :\t011 \r\n\r\n[null,true]" := by
  decide +kernel

theorem carries_loudPacket : Carries (.array [.null, .bool true]) loudPacket.bytes := by
  refine ⟨loudPacket, fun h hh n hn => ?_, rfl, rfl⟩
  have hlength : loudPacket.body.length = 11 := by decide +kernel
  rw [hlength]
  obtain rfl | rfl := List.mem_pair.mp hh
  · cases hn
  · exact (Option.some.inj hn).symm

/-- A frame in other words and a written one, which is cut before its body. -/
theorem round_trip_of_cut :
    (∀ v ∈ [Json.array [.null, .bool true], .null], (Json.toBytes v).length ≤ maxLength) ∧
      (∀ v ∈ [Json.array [.null, .bool true], .null], Json.parse (Json.toBytes v) = .ok v) ∧
      List.Forall₂ Carries [.array [.null, .bool true], .null] [loudPacket.bytes, write .null] ∧
      readAll true [loudPacket.bytes, write .null].flatten =
        ([.ok (.array [.null, .bool true]), .ok .null], .ended) ∧
      ∃ f, readAll true (loudPacket.bytes ++ (write .null).take 17) =
        ([.ok (.array [.null, .bool true])], .broken f) := by
  have hfit : ∀ v ∈ [Json.array [.null, .bool true], .null], (Json.toBytes v).length ≤ maxLength := by
    decide +kernel
  have harray : Json.toBytes (.array [.null, .bool true]) =
      [0x5B, 0x6E, 0x75, 0x6C, 0x6C, 0x2C, 0x74, 0x72, 0x75, 0x65, 0x5D] := by decide +kernel
  have hnull : Json.toBytes .null = [0x6E, 0x75, 0x6C, 0x6C] := by decide +kernel
  have hback : ∀ v ∈ [Json.array [.null, .bool true], .null], Json.parse (Json.toBytes v) = .ok v :=
    List.forall_mem_cons.mpr ⟨by rw [harray]; rfl, List.forall_mem_singleton.mpr (by rw [hnull]; rfl)⟩
  have hframes :
      List.Forall₂ Carries [.array [.null, .bool true], .null] [loudPacket.bytes, write .null] :=
    .cons carries_loudPacket (.cons (carries_write (hfit _ (by simp))) .nil)
  have hcutLength : (loudPacket.bytes ++ (write .null).take 17).length = loudPacket.bytes.length + 17 := by
    rw [List.length_append, List.length_take, show (write .null).length = 25 by decide +kernel]
    rfl
  have hlengths : ∀ k, ([loudPacket.bytes, write .null].take k).flatten.length =
      if k = 0 then 0 else if k = 1 then loudPacket.bytes.length else loudPacket.bytes.length + 25 := by
    intro k
    match k with
    | 0 => rfl
    | 1 => simp
    | k + 2 => simp [show (write .null).length = 25 by decide +kernel]
  obtain ⟨-, -, -, hread⟩ := round_trip hfit hback
  obtain ⟨hall, hcut⟩ := hread _ hframes
  obtain ⟨k, f, hbefore, hafter, hbroken⟩ := hcut (loudPacket.bytes ++ (write .null).take 17)
    (by
      rw [List.flatten_cons, List.flatten_singleton]
      exact (List.prefix_append_right_inj _).mpr (List.take_prefix _ _))
    (fun k heq => by
      have := congrArg List.length heq
      rw [hcutLength, hlengths] at this
      split_ifs at this <;> omega)
  -- by its length the cut is in the second frame
  have hk : k = 1 := by
    have hlow := hbefore.length_le
    have hhigh := hafter.length_le
    rw [hcutLength, hlengths] at hlow hhigh
    split_ifs at hlow hhigh <;> omega
  subst hk
  exact ⟨hfit, hback, hframes, hall, f, hbroken⟩

end WorkflowLint.Frame
