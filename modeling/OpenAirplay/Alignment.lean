import OpenAirplay.Segments

/-!
# Samples and timestamps

Every packet advances the timestamp by the same number of frames, so the audio stays in step
with it only if every packet also adds that many to what is written. Lost packets do, being
replaced by silence; packets that fail to decode do not.
-/

namespace OpenAirplay.Player

set_option autoImplicit false

def Command.timestamp? : Command → Option U32
  | .frame ts _ | .silence ts => some ts
  | .flush | .stop => none

/-- Every sample carries the number of its command. -/
def numbered : Reading (Command × Nat) (Nat × Sample) := ⟨Prod.fst, fun c x => (c.2, x)⟩

/-- `block` stands in `out` from this offset on. -/
def StartsAt {α : Type} (out block : List α) (offset : Nat) : Prop :=
  ∃ pre post, out = pre ++ block ++ post ∧ pre.length = offset

section Stream

variable (config : AlacConfig) (decoder : Decoder)

def packetSamples : Nat := config.framesPerPacket.toNat * decoder.channels

/-- The commands of a stream from `t0` on. -/
structure Streamed (t0 : U32) (commands : List Command) : Prop where
  stamped : ∀ j c, commands[j]? = some c →
    c.timestamp? = some (t0 + BitVec.ofNat 32 j * config.framesPerPacket)
  opens : ∀ c ∈ commands.head?, (pcm config decoder c).isSome
  sized : ∀ ts packet samples, .frame ts packet ∈ commands →
    decoder.decode packet = some samples → samples.length = packetSamples config decoder

/-- The samples of a command, with its number. -/
def block (c : Command × Nat) : List (Nat × Sample) :=
  ((pcm config decoder c.1).map fun audio => audio.2.map (Prod.mk c.2)).getD []

/-- What the sink hears once the prebuffer has released. -/
def heard (commands : List Command) (start : Nat) : List (Nat × Sample) :=
  (commands.zipIdx start).flatMap (block config decoder)

end Stream

theorem written_outputs {σ : Type} (actions : List (Action σ)) :
    written (outputs actions) = written actions := by
  induction actions with
  | nil => rfl
  | cons action actions ih =>
    cases action <;> simp_all [outputs, written]

theorem written_writes {σ : Type} (packets : List (U32 × List σ)) :
    written (packets.map fun packet => (.write packet.2 : Action σ)) =
      packets.flatMap Prod.snd := by
  induction packets with
  | nil => rfl
  | cons packet packets ih => simp [written, ih]

theorem written_released {σ : Type} {n : Nat} {audio : List (U32 × List σ)}
    (h : n ≤ audio.length) : written (released n audio) = audio.flatMap Prod.snd := by
  rw [released_of_le h]
  change (audio.take n).flatMap Prod.snd ++ written ((audio.drop n).map _) = _
  rw [written_writes, ← List.flatMap_append, List.take_append_drop]

section Blocks

variable {config : AlacConfig} {decoder : Decoder}

theorem block_of_pcm {c : Command} {ts : U32} {samples : List Sample}
    (h : pcm config decoder c = some (ts, samples)) (j : Nat) :
    block config decoder (c, j) = samples.map (Prod.mk j) := by
  simp [block, h]

theorem le_of_mem_heard {commands : List Command} {start : Nat} {x : Nat × Sample}
    (h : x ∈ heard config decoder commands start) : start ≤ x.1 := by
  obtain ⟨⟨c, j⟩, hc, hx⟩ := List.mem_flatMap.mp h
  have hj : start ≤ j := List.le_snd_of_mem_zipIdx hc
  cases hpcm : pcm config decoder c with
  | none => simp [block, hpcm] at hx
  | some audio =>
    rw [block_of_pcm hpcm] at hx
    obtain ⟨y, -, rfl⟩ := List.mem_map.mp hx
    exact hj

variable (config decoder) in
theorem heard_append (commands more : List Command) (start : Nat) :
    heard config decoder (commands ++ more) start =
      heard config decoder commands start ++
        heard config decoder more (start + commands.length) := by
  rw [heard, List.zipIdx_append, List.flatMap_append]
  rfl

variable (config decoder) in
theorem heard_split {commands : List Command} {c : Command} {j : Nat}
    (h : commands[j]? = some c) :
    heard config decoder commands 0 =
      heard config decoder (commands.take j) 0 ++ block config decoder (c, j) ++
        heard config decoder (commands.drop (j + 1)) (j + 1) := by
  obtain ⟨hj, rfl⟩ := List.getElem?_eq_some_iff.mp h
  have hsplit : commands = commands.take j ++ ([commands[j]] ++ commands.drop (j + 1)) := by
    rw [List.singleton_append, ← List.drop_eq_getElem_cons hj, List.take_append_drop]
  have hlen : (commands.take j).length = j := by
    rw [List.length_take]
    omega
  have hone : heard config decoder [commands[j]] j = block config decoder (commands[j], j) := by
    simp [heard]
  conv => lhs; rw [hsplit]
  rw [heard_append, heard_append, hlen, Nat.zero_add, hone, List.append_assoc]
  rfl

variable (config decoder) in
theorem length_heard {commands : List Command} {size : Nat} (start : Nat)
    (hsize : ∀ c ∈ commands, ∀ audio ∈ pcm config decoder c, audio.2.length = size) :
    (heard config decoder commands start).length =
      commands.countP (fun c => (pcm config decoder c).isSome) * size := by
  induction commands generalizing start with
  | nil => simp [heard]
  | cons c commands ih =>
    have hrest := ih (start + 1) fun c hc => hsize c (List.mem_cons_of_mem _ hc)
    have hfirst := heard_append config decoder [c] commands start
    have hone : heard config decoder [c] start = block config decoder (c, start) := by
      simp [heard]
    rw [List.singleton_append, List.length_singleton, hone] at hfirst
    rw [hfirst, List.length_append, hrest, List.countP_cons]
    cases hpcm : pcm config decoder c with
    | none => simp [block, hpcm]
    | some audio =>
      have hlen := hsize c List.mem_cons_self audio hpcm
      rw [block_of_pcm hpcm, List.length_map, hlen]
      simp [Nat.add_mul, Nat.add_comm]

theorem countP_take_eq_iff {α : Type} {p : α → Bool} {l : List α} {j : Nat} (hj : j ≤ l.length) :
    (l.take j).countP p = j ↔ ∀ i < j, ∀ b, l[i]? = some b → p b = true := by
  have hlen : (l.take j).length = j := List.length_take_of_le hj
  have hall := List.countP_eq_length (p := p) (l := l.take j)
  rw [hlen] at hall
  rw [hall]
  constructor
  · intro h i hi b hb
    apply h
    apply List.mem_of_getElem? (i := i)
    rwa [List.getElem?_take_of_lt hi]
  · intro h b hb
    obtain ⟨i, hi⟩ := List.mem_iff_getElem?.mp hb
    have hij : i < j := by
      have := (List.getElem?_eq_some_iff.mp hi).1
      omega
    rw [List.getElem?_take_of_lt hij] at hi
    exact h i hij b hi

/-- Where a command is heard, when all have as many samples. -/
theorem heard_around {commands : List Command} {c : Command} {j size : Nat}
    (hj : commands[j]? = some c)
    (hsize : ∀ c ∈ commands, ∀ audio ∈ pcm config decoder c, audio.2.length = size)
    {audio : U32 × List Sample} (hpcm : pcm config decoder c = some audio) :
    heard config decoder commands 0 =
        heard config decoder (commands.take j) 0 ++ audio.2.map (Prod.mk j) ++
          heard config decoder (commands.drop (j + 1)) (j + 1) ∧
      (heard config decoder (commands.take j) 0).length =
        (commands.take j).countP (fun c => (pcm config decoder c).isSome) * size := by
  have hsplit := heard_split config decoder hj
  rw [block_of_pcm hpcm] at hsplit
  exact ⟨hsplit, length_heard config decoder 0
    fun c (hc : c ∈ commands.take j) => hsize c (List.mem_of_mem_take hc)⟩

theorem not_startsAt_of_missing {commands : List Command} {c : Command} {j size : Nat}
    (hj : commands[j]? = some c)
    (hsize : ∀ c ∈ commands, ∀ audio ∈ pcm config decoder c, audio.2.length = size)
    {audio : U32 × List Sample} (hpcm : pcm config decoder c = some audio) (hpos : 0 < size)
    (hmissing : (commands.take j).countP (fun c => (pcm config decoder c).isSome) < j) :
    ¬StartsAt (heard config decoder commands 0) (audio.2.map (Prod.mk j)) (j * size) := by
  rintro ⟨pre, post, hout, hpre⟩
  have haudio : audio.2.length = size := hsize c (List.mem_of_getElem? hj) audio hpcm
  obtain ⟨hsplit, hbefore⟩ := heard_around hj hsize hpcm
  have hless : ((commands.take j).countP (fun c => (pcm config decoder c).isSome) + 1) * size ≤
      j * size := Nat.mul_le_mul_right size hmissing
  rw [Nat.add_mul, Nat.one_mul] at hless
  -- where the last of its samples should stand, there is one of a later command
  have hlast : (heard config decoder commands 0)[j * size + (size - 1)]? =
      (audio.2.map (Prod.mk j))[size - 1]? := by
    rw [hout, List.append_assoc, List.getElem?_append_right (by omega),
      List.getElem?_append_left (by rw [List.length_map]; omega)]
    congr 1
    omega
  have hin : size - 1 < audio.2.length := by omega
  rw [hsplit, List.getElem?_append_right (by rw [List.length_append, List.length_map]; omega),
    List.getElem?_map, List.getElem?_eq_getElem hin, Option.map_some] at hlast
  have hlater := le_of_mem_heard (List.mem_of_getElem? hlast)
  exact absurd hlater (Nat.not_succ_le_self j)

/-- A command's samples are in their place exactly when all before it have as many. -/
theorem startsAt_iff {commands : List Command} {c : Command} {j size : Nat}
    (hj : commands[j]? = some c)
    (hsize : ∀ c ∈ commands, ∀ audio ∈ pcm config decoder c, audio.2.length = size)
    {audio : U32 × List Sample} (hpcm : pcm config decoder c = some audio) :
    StartsAt (heard config decoder commands 0) (audio.2.map (Prod.mk j)) (j * size) ↔
      size = 0 ∨ ∀ i < j, ∀ b, commands[i]? = some b → (pcm config decoder b).isSome := by
  have hlt : j < commands.length := (List.getElem?_eq_some_iff.mp hj).1
  have hcount : (commands.take j).countP (fun c => (pcm config decoder c).isSome) ≤ j :=
    List.countP_le_length.trans (by rw [List.length_take]; omega)
  obtain ⟨hsplit, hbefore⟩ := heard_around hj hsize hpcm
  rw [← countP_take_eq_iff hlt.le]
  constructor
  · intro h
    by_contra hnot
    obtain ⟨hpos, hmissing⟩ := not_or.mp hnot
    exact not_startsAt_of_missing hj hsize hpcm (by omega) (by omega) h
  · intro h
    rcases h with hzero | hall
    · have haudio : audio.2.length = size := hsize c (List.mem_of_getElem? hj) audio hpcm
      refine ⟨[], heard config decoder commands 0, ?_, by simp [hzero]⟩
      simp [List.eq_nil_of_length_eq_zero (haudio.trans hzero)]
    · exact ⟨_, _, hsplit, by rw [hbefore, hall]⟩

variable (config decoder) in
theorem sounding_numbered (commands : List Command) (start : Nat) :
    (sounding config decoder numbered (commands.zipIdx start)).flatMap Prod.snd =
        heard config decoder commands start ∧
      (sounding config decoder numbered (commands.zipIdx start)).length =
        (sounding config decoder plain commands).length := by
  induction commands generalizing start with
  | nil => exact ⟨rfl, rfl⟩
  | cons c commands ih =>
    obtain ⟨hheard, hlen⟩ := ih (start + 1)
    rw [List.zipIdx_cons]
    cases hpcm : pcm config decoder c with
    | none =>
      have hnumbered : pcm config decoder (numbered.command (c, start)) = none := hpcm
      have hplain : pcm config decoder (plain.command c) = none := hpcm
      rw [sounding_cons_none hnumbered, sounding_cons_none hplain, hheard, hlen]
      simp [heard, block, hpcm]
    | some audio =>
      have hnumbered : pcm config decoder (numbered.command (c, start)) = some audio := hpcm
      have hplain : pcm config decoder (plain.command c) = some audio := hpcm
      rw [sounding_cons_some hnumbered, sounding_cons_some hplain, List.flatMap_cons, hheard,
        List.length_cons, hlen]
      simp [heard, block, hpcm, numbered]

/-- Once released, the sink hears the whole audio of the stream. -/
theorem written_numbered {n : Nat} (hn : 0 < n) {commands : List Command}
    (hplain : ∀ c ∈ commands, c ≠ .flush ∧ c ≠ .stop)
    (hreleased : n ≤ (sounding config decoder plain commands).length) :
    written (replay config decoder numbered (.new n) commands.zipIdx).1 =
      heard config decoder commands 0 := by
  obtain ⟨hheard, hlen⟩ := sounding_numbered config decoder commands 0
  obtain ⟨actions, hreplay, hout⟩ := replay_new config decoder numbered hn commands.zipIdx
    fun c hc => hplain c.1 (List.fst_mem_of_mem_zipIdx hc)
  rw [hreplay, ← written_outputs]
  simp only [hout]
  rw [written_released (by omega), hheard]

theorem Streamed.plain {t0 : U32} {commands : List Command}
    (h : Streamed config decoder t0 commands) : ∀ c ∈ commands, c ≠ .flush ∧ c ≠ .stop := by
  intro c hc
  obtain ⟨j, hj⟩ := List.mem_iff_getElem?.mp hc
  have hts := h.stamped j c hj
  constructor
  · intro hflush
    rw [hflush] at hts
    cases hts
  · intro hstop
    rw [hstop] at hts
    cases hts

theorem Streamed.size {t0 : U32} {commands : List Command}
    (h : Streamed config decoder t0 commands) :
    ∀ c ∈ commands, ∀ audio ∈ pcm config decoder c,
      audio.2.length = packetSamples config decoder := by
  intro c hc audio haudio
  cases c with
  | frame ts packet =>
    obtain ⟨samples, hdecode, rfl⟩ := Option.map_eq_some_iff.mp haudio
    exact h.sized ts packet samples hc hdecode
  | silence ts =>
    cases haudio
    exact List.length_replicate
  | flush => cases haudio
  | stop => cases haudio

end Blocks

/-- What comes after an undecodable packet is heard too early; the rest is in its place. -/
theorem aligned_iff (config : AlacConfig) (decoder : Decoder) (n : Nat) (hn : 0 < n) (t0 : U32)
    (commands : List Command) (h : Streamed config decoder t0 commands) :
    (n ≤ (sounding config decoder plain commands).length →
      ∀ j c ts samples, commands[j]? = some c → pcm config decoder c = some (ts, samples) →
        StartsAt (written (replay config decoder numbered (.new n) commands.zipIdx).1)
          (samples.map (Prod.mk j)) (j * packetSamples config decoder)) ↔
      ((sounding config decoder plain commands).length < n ∨ packetSamples config decoder = 0 ∨
        ∀ (j : Nat) c, commands[j]? = some c → (pcm config decoder c).isSome →
          ∀ i < j, ∀ b, commands[i]? = some b → (pcm config decoder b).isSome) := by
  have hstarts : ∀ (j : Nat) c audio, commands[j]? = some c → pcm config decoder c = some audio →
      (StartsAt (heard config decoder commands 0) (audio.2.map (Prod.mk j))
        (j * packetSamples config decoder) ↔ packetSamples config decoder = 0 ∨
          ∀ i < j, ∀ b, commands[i]? = some b → (pcm config decoder b).isSome) :=
    fun j c audio hj hpcm => startsAt_iff hj h.size hpcm
  rcases Nat.lt_or_ge (sounding config decoder plain commands).length n with hlen | hlen
  · exact iff_of_true (fun hle => absurd hle (Nat.not_le_of_lt hlen)) (.inl hlen)
  · rw [written_numbered hn h.plain hlen]
    constructor
    · intro haligned
      right
      by_cases hzero : packetSamples config decoder = 0
      · exact .inl hzero
      · right
        intro j c hj hsome
        obtain ⟨audio, hpcm⟩ := Option.isSome_iff_exists.mp hsome
        exact ((hstarts j c audio hj hpcm).mp
          (haligned hlen j c audio.1 audio.2 hj hpcm)).resolve_left hzero
    · intro hcond _ j c ts samples hj hpcm
      refine (hstarts j c (ts, samples) hj hpcm).mpr ?_
      rcases hcond with hfew | hzero | hall
      · omega
      · exact .inl hzero
      · exact .inr (hall j c hj (by simp [hpcm]))

/-- 8 ms packets, of which the prebuffer takes 25. -/
def shortPackets : AlacConfig :=
  ⟨352, 16, 2, 44100, #v[96, 352, 0, 16, 40, 10, 14, 2, 255, 0, 1411200, 44100]⟩

/-- Twenty-five lost packets, and one behind the first of them that arrived damaged. -/
def damaged : List Command := (List.range 26).map fun j =>
  if j = 1 then .frame 352 [] else .silence (BitVec.ofNat 32 j * 352)

theorem damaged_at {j : Nat} {c : Command} (h : damaged[j]? = some c) :
    c = if j = 1 then .frame 352 [] else .silence (BitVec.ofNat 32 j * 352) := by
  rw [damaged, List.getElem?_map, Option.map_eq_some_iff] at h
  obtain ⟨i, hi, rfl⟩ := h
  obtain ⟨hlt, rfl⟩ := List.getElem?_eq_some_iff.mp hi
  rw [List.getElem_range]

theorem streamed_damaged : Streamed shortPackets shortDecoder 0 damaged where
  stamped := by
    intro j c hj
    rw [damaged_at hj]
    split
    · rename_i hone
      rw [hone]
      rfl
    · rw [zero_add]
      rfl
  opens := by
    intro c hc
    cases hc
    rfl
  sized := by
    intro ts packet samples hmem hdecode
    obtain ⟨j, hj⟩ := List.mem_iff_getElem?.mp hmem
    have hc := damaged_at hj
    split at hc
    · cases hc
      cases hdecode
    · cases hc

theorem released_damaged :
    prebufferPackets shortPackets ≤ (sounding shortPackets shortDecoder plain damaged).length := by
  have hcount : (sounding shortPackets shortDecoder plain damaged).length =
      damaged.countP fun c => (pcm shortPackets shortDecoder c).isSome := by
    rw [sounding, List.length_filterMap_eq_countP]
    simp [plain]
  rw [hcount]
  decide

theorem aligned_damaged :
    (prebufferPackets shortPackets ≤ (sounding shortPackets shortDecoder plain damaged).length →
      ∀ j c ts samples, damaged[j]? = some c →
        pcm shortPackets shortDecoder c = some (ts, samples) →
          StartsAt (written (replay shortPackets shortDecoder numbered
              (.new (prebufferPackets shortPackets)) damaged.zipIdx).1)
            (samples.map (Prod.mk j)) (j * packetSamples shortPackets shortDecoder)) ↔
      ((sounding shortPackets shortDecoder plain damaged).length < prebufferPackets shortPackets ∨
        packetSamples shortPackets shortDecoder = 0 ∨
        ∀ (j : Nat) c, damaged[j]? = some c → (pcm shortPackets shortDecoder c).isSome →
          ∀ i < j, ∀ b, damaged[i]? = some b → (pcm shortPackets shortDecoder b).isSome) :=
  aligned_iff shortPackets shortDecoder (prebufferPackets shortPackets) (prebufferPackets_pos _) 0
    damaged streamed_damaged

/-- The packet behind the damaged one is not heard in its place. -/
theorem damaged_packet_shifts :
    Streamed shortPackets shortDecoder 0 damaged ∧
      prebufferPackets shortPackets ≤ (sounding shortPackets shortDecoder plain damaged).length ∧
      damaged[2]? = some (.silence 704) ∧
      ¬StartsAt (written (replay shortPackets shortDecoder numbered
          (.new (prebufferPackets shortPackets)) damaged.zipIdx).1)
        ((silenceFrame shortPackets shortDecoder).map (Prod.mk 2))
        (2 * packetSamples shortPackets shortDecoder) := by
  refine ⟨streamed_damaged, released_damaged, rfl, ?_⟩
  rw [written_numbered (prebufferPackets_pos _) streamed_damaged.plain released_damaged]
  intro hstarts
  have hat : damaged[2]? = some (.silence 704) := rfl
  have hpcm : pcm shortPackets shortDecoder (.silence 704) =
      some (704, silenceFrame shortPackets shortDecoder) := rfl
  have hiff := startsAt_iff hat streamed_damaged.size hpcm
  rcases hiff.mp hstarts with hzero | hall
  · exact absurd hzero (by decide)
  · exact absurd (hall 1 (by decide) (.frame 352 []) rfl) (by decide)

end OpenAirplay.Player
