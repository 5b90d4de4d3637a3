import OpenAirplay.FlushedAudio

/-!
# What the sink hears between two flushes

A flush re-arms the playout and its prebuffer together, so each stretch between flushes is
played as if it were the first: held back until enough packets have come, then written.
-/

namespace OpenAirplay.Player

set_option autoImplicit false

section Playouts

variable {σ : Type}

/-- The playout that has been fed this audio since its last reset. -/
def Playout.fed (n : Nat) (audio : List (U32 × List σ)) : Playout σ where
  prebuffer :=
    if audio.length < n then ⟨n, audio.length, audio.flatMap Prod.snd, false⟩ else ⟨n, n, [], true⟩
  started := n ≤ audio.length
  firstTs := audio.head?.map Prod.fst

/-- What the playout does for this audio, all of it since a reset. -/
def released (n : Nat) (audio : List (U32 × List σ)) : List (Action σ) :=
  if audio.length < n then []
  else
    .awaitStart (audio.head?.map Prod.fst) :: .write ((audio.take n).flatMap Prod.snd) ::
      (audio.drop n).map fun packet => .write packet.2

theorem fed_of_lt {n : Nat} {audio : List (U32 × List σ)} (h : audio.length < n) :
    Playout.fed n audio = ⟨⟨n, audio.length, audio.flatMap Prod.snd, false⟩, false,
      audio.head?.map Prod.fst⟩ := by
  simp [Playout.fed, h]

theorem fed_of_le {n : Nat} {audio : List (U32 × List σ)} (h : n ≤ audio.length) :
    Playout.fed n audio = ⟨⟨n, n, [], true⟩, true, audio.head?.map Prod.fst⟩ := by
  simp [Playout.fed, h]

theorem released_of_lt {n : Nat} {audio : List (U32 × List σ)} (h : audio.length < n) :
    released n audio = [] := if_pos h

theorem released_of_le {n : Nat} {audio : List (U32 × List σ)} (h : n ≤ audio.length) :
    released n audio = .awaitStart (audio.head?.map Prod.fst) ::
      .write ((audio.take n).flatMap Prod.snd) ::
        (audio.drop n).map fun packet => .write packet.2 := if_neg (Nat.not_lt_of_le h)

theorem fed_nil {n : Nat} (hn : 0 < n) : Playout.fed n ([] : List (U32 × List σ)) = .new n :=
  fed_of_lt hn

theorem reset_fed {n : Nat} (audio : List (U32 × List σ)) :
    (Playout.fed n audio).reset = .new n := by
  rcases Nat.lt_or_ge audio.length n with h | h
  · rw [fed_of_lt h]
    rfl
  · rw [fed_of_le h]
    rfl

/-- One more packet, while the prebuffer fills, when it is full, and from then on. -/
theorem feed_fed {n : Nat} (hn : 0 < n) (audio : List (U32 × List σ)) (ts : U32) (pcm : List σ) :
    ∃ actions, (Playout.fed n audio).feed ts pcm =
        (actions, Playout.fed n (audio ++ [(ts, pcm)])) ∧
      released n (audio ++ [(ts, pcm)]) = released n audio ++ actions := by
  have hhead : (audio ++ [(ts, pcm)]).head?.map Prod.fst =
      some ((audio.head?.map Prod.fst).getD ts) := by
    cases audio <;> rfl
  have hlength : (audio ++ [(ts, pcm)]).length = audio.length + 1 := by simp
  rcases Nat.lt_or_ge audio.length n with hlen | hlen
  · rw [fed_of_lt hlen, released_of_lt hlen]
    rcases Nat.lt_or_ge (audio.length + 1) n with hmore | hfull
    · rw [fed_of_lt (by omega), released_of_lt (by omega), hhead]
      refine ⟨[], ?_, rfl⟩
      simp [Playout.feed, Prebuffer.push, Nat.not_le_of_lt hmore]
    · rw [fed_of_le (by omega), released_of_le (by omega), hhead,
        List.take_of_length_le (by omega), List.drop_of_length_le (by omega)]
      refine ⟨_, ?_, rfl⟩
      simp [Playout.feed, Prebuffer.push, hfull]
      omega
  · have hsame : (audio ++ [(ts, pcm)]).head?.map Prod.fst = audio.head?.map Prod.fst := by
      cases audio with
      | nil => exact absurd hlen (Nat.not_le_of_lt hn)
      | cons first rest => rfl
    rw [fed_of_le hlen, released_of_le hlen, fed_of_le (by omega), released_of_le (by omega), hsame]
    refine ⟨[.write pcm], ?_, ?_⟩
    · simp [Playout.feed, Prebuffer.push]
    · rw [List.take_append_of_le_length hlen, List.drop_append_of_le_length hlen]
      simp

end Playouts

section Commands

variable {κ σ : Type} (config : AlacConfig) (decoder : Decoder) (reading : Reading κ σ)

/-- The audio of the commands that yield any. -/
def sounding (commands : List κ) : List (U32 × List σ) :=
  commands.filterMap fun command => (pcm config decoder (reading.command command)).map
    fun audio => (audio.1, audio.2.map (reading.sample command))

/-- What the playout does, the reports of the position left out. -/
def outputs (actions : List (Action σ)) : List (Action σ) :=
  actions.filter fun
    | .played _ => false
    | _ => true

@[simp] theorem outputs_nil : outputs ([] : List (Action σ)) = [] := rfl

@[simp] theorem outputs_append (actions more : List (Action σ)) :
    outputs (actions ++ more) = outputs actions ++ outputs more := List.filter_append ..

@[simp] theorem outputs_played (ts : U32) : outputs [(.played ts : Action σ)] = [] := rfl

@[simp] theorem outputs_flush : outputs [(.flush : Action σ)] = [.flush] := rfl

theorem outputs_released (n : Nat) (audio : List (U32 × List σ)) :
    outputs (released n audio) = released n audio := by
  rcases Nat.lt_or_ge audio.length n with h | h
  · rw [released_of_lt h]
    rfl
  · rw [released_of_le h]
    refine List.filter_eq_self.mpr fun action haction => ?_
    rcases List.mem_cons.mp haction with rfl | haction
    · rfl
    · rcases List.mem_cons.mp haction with rfl | haction
      · rfl
      · obtain ⟨packet, -, rfl⟩ := List.mem_map.mp haction
        rfl

end Commands

section Replay

variable {κ σ : Type} {config : AlacConfig} {decoder : Decoder} {reading : Reading κ σ}

theorem sounding_cons_none {c : κ} (h : pcm config decoder (reading.command c) = none)
    (commands : List κ) :
    sounding config decoder reading (c :: commands) = sounding config decoder reading commands := by
  simp [sounding, h]

theorem sounding_cons_some {c : κ} {ts : U32} {samples : List Sample}
    (h : pcm config decoder (reading.command c) = some (ts, samples)) (commands : List κ) :
    sounding config decoder reading (c :: commands) =
      (ts, samples.map (reading.sample c)) :: sounding config decoder reading commands := by
  simp [sounding, h]

variable (config decoder reading) in
/-- Commands with no flush among them feed the playout. -/
theorem replay_fed {n : Nat} (hn : 0 < n) (audio : List (U32 × List σ)) (commands : List κ)
    (hplain : ∀ c ∈ commands, reading.command c ≠ .flush ∧ reading.command c ≠ .stop) :
    ∃ actions, replay config decoder reading (.fed n audio) commands =
        (actions, some (.fed n (audio ++ sounding config decoder reading commands))) ∧
      released n (audio ++ sounding config decoder reading commands) =
        released n audio ++ outputs actions := by
  induction commands generalizing audio with
  | nil => exact ⟨[], by simp [replay, sounding], by simp [sounding]⟩
  | cons c commands ih =>
    obtain ⟨hflush, hstop⟩ := hplain c List.mem_cons_self
    have hrest : ∀ c ∈ commands, reading.command c ≠ .flush ∧ reading.command c ≠ .stop :=
      fun c hc => hplain c (List.mem_cons_of_mem _ hc)
    rcases handle_cases config decoder reading (.fed n audio) c with
      ⟨ts, samples, hpcm⟩ | ⟨hnone, ⟨h, -⟩ | ⟨h, -⟩ | ⟨-, -, hhandle⟩⟩
    · obtain ⟨actions, hfeed, hreleased⟩ :=
        feed_fed hn audio ts (samples.map (reading.sample c))
      have hhandle := handle_pcm (p := .fed n audio) hpcm
      rw [hfeed] at hhandle
      obtain ⟨more, hreplay, hmore⟩ := ih (audio ++ [(ts, samples.map (reading.sample c))]) hrest
      have hsounding := sounding_cons_some hpcm commands
      have hactions : outputs actions = actions := by
        have hall := outputs_released n (audio ++ [(ts, samples.map (reading.sample c))])
        rw [hreleased, outputs_append, outputs_released] at hall
        exact List.append_cancel_left hall
      rw [List.append_assoc, List.singleton_append] at hreplay hmore
      refine ⟨actions ++ [.played ts] ++ more, ?_, ?_⟩
      · rw [replay_cons_some hhandle, hreplay, hsounding]
      · rw [hsounding, hmore, hreleased, outputs_append, outputs_append, hactions, outputs_played,
          List.append_nil, List.append_assoc]
    · exact absurd h hstop
    · exact absurd h hflush
    · obtain ⟨more, hreplay, hmore⟩ := ih audio hrest
      rw [replay_cons_some hhandle, hreplay, sounding_cons_none hnone]
      exact ⟨_, rfl, hmore⟩

variable (config decoder reading) in
theorem replay_new {n : Nat} (hn : 0 < n) (commands : List κ)
    (hplain : ∀ c ∈ commands, reading.command c ≠ .flush ∧ reading.command c ≠ .stop) :
    ∃ actions, replay config decoder reading (.new n) commands =
        (actions, some (.fed n (sounding config decoder reading commands))) ∧
      outputs actions = released n (sounding config decoder reading commands) := by
  have hnothing : released n ([] : List (U32 × List σ)) = [] := released_of_lt hn
  have hfed := replay_fed config decoder reading hn ([] : List (U32 × List σ)) commands hplain
  simp only [fed_nil hn, List.nil_append, hnothing] at hfed
  obtain ⟨actions, hreplay, hreleased⟩ := hfed
  exact ⟨actions, hreplay, hreleased.symm⟩

end Replay

/-- How a segment with this audio is played: nothing below the threshold, else the wait for the
start of its first packet and one write for each packet from the threshold on. -/
structure Plays {σ : Type} (n : Nat) (audio : List (U32 × List σ)) (actions : List (Action σ)) :
    Prop where
  silent : audio.length < n → actions = []
  starts : n ≤ audio.length → ∃ first, ∃ chunks : List (List σ),
    audio.head?.map Prod.fst = some first ∧
    actions = .awaitStart (some first) :: chunks.map .write ∧
    chunks.length = audio.length - n + 1 ∧ chunks.flatten = audio.flatMap Prod.snd

theorem released_plays {σ : Type} {n : Nat} (hn : 0 < n) (audio : List (U32 × List σ)) :
    Plays n audio (released n audio) := by
  constructor
  · exact released_of_lt
  · intro hle
    cases audio with
    | nil => exact absurd hle (Nat.not_le_of_lt hn)
    | cons first rest =>
      refine ⟨first.1, (((first :: rest).take n).flatMap Prod.snd) ::
        ((first :: rest).drop n).map Prod.snd, rfl, ?_, by simp, ?_⟩
      · rw [released_of_le hle, List.map_cons, List.map_map]
        rfl
      · rw [List.flatten_cons, ← List.flatMap_def, ← List.flatMap_append, List.take_append_drop]

section Flushes

variable (config : AlacConfig) (decoder : Decoder)

theorem flush_not_mem_split {commands segment : List Command}
    (h : segment ∈ commands.splitOn .flush) :
    .flush ∉ segment ∧ ∀ c ∈ segment, c ∈ commands := by
  induction commands generalizing segment with
  | nil =>
    rw [List.splitOn_nil, List.mem_singleton] at h
    simp [h]
  | cons c commands ih =>
    rw [List.splitOn_cons_eq_if_modifyHead] at h
    split at h
    · rcases List.mem_cons.mp h with rfl | h
      · simp
      · obtain ⟨hflush, hmem⟩ := ih h
        exact ⟨hflush, fun d hd => List.mem_cons_of_mem _ (hmem d hd)⟩
    · rename_i hne
      cases hsplit : commands.splitOn .flush with
      | nil => exact absurd hsplit (List.splitOn_ne_nil _ _)
      | cons first rest =>
        rw [hsplit] at h ih
        rcases List.mem_cons.mp h with rfl | h
        · obtain ⟨hflush, hmem⟩ := ih List.mem_cons_self
          refine ⟨?_, ?_⟩
          · intro hin
            rcases List.mem_cons.mp hin with heq | hin
            · exact hne (by simp [heq])
            · exact hflush hin
          · intro d hd
            rcases List.mem_cons.mp hd with rfl | hd
            · exact List.mem_cons_self
            · exact List.mem_cons_of_mem _ (hmem d hd)
        · obtain ⟨hflush, hmem⟩ := ih (List.mem_cons_of_mem _ h)
          exact ⟨hflush, fun d hd => List.mem_cons_of_mem _ (hmem d hd)⟩

/-- Segment by segment, the flushes between them passed on to the sink. -/
theorem replay_segments {n : Nat} (hn : 0 < n) (segments : List (List Command))
    (hplain : ∀ segment ∈ segments, ∀ c ∈ segment, c ≠ .flush ∧ c ≠ .stop) :
    outputs (replay config decoder plain (.new n) ([.flush].intercalate segments)).1 =
      [.flush].intercalate
        (segments.map fun segment => released n (sounding config decoder plain segment)) := by
  induction segments with
  | nil => rfl
  | cons segment rest ih =>
    obtain ⟨actions, hreplay, hout⟩ :=
      replay_new config decoder plain hn segment (hplain segment List.mem_cons_self)
    have hrest := ih fun segment h => hplain segment (List.mem_cons_of_mem _ h)
    cases rest with
    | nil =>
      rw [List.intercalate_singleton, hreplay, List.map_singleton, List.intercalate_singleton]
      exact hout
    | cons next rest =>
      have hflush : handle config decoder plain (.fed n (sounding config decoder plain segment))
          .flush = some ([.flush], .new n) := by
        rw [← reset_fed]
        rfl
      rw [List.intercalate_cons_cons, List.append_assoc, replay_append, hreplay,
        List.singleton_append]
      simp only [Option.map_some, Option.getD_some, replay_cons_some hflush, outputs_append,
        outputs_flush, hrest, hout, List.map_cons, List.intercalate_cons_cons]
      exact (List.append_assoc ..).symm

end Flushes

/-- Between flushes the sink hears the whole audio in order from the threshold on, after one wait
for the first packet's start, and a flush ends what is heard of its segment. -/
theorem segments_played (config : AlacConfig) (decoder : Decoder) (n : Nat) (hn : 0 < n)
    (commands : List Command) (hstop : .stop ∉ commands) :
    ∃ segments, outputs (replay config decoder plain (.new n) commands).1 =
        [.flush].intercalate segments ∧
      List.Forall₂ (fun batch => Plays n (sounding config decoder plain batch))
        (commands.splitOn .flush) segments := by
  refine ⟨(commands.splitOn .flush).map fun batch =>
    released n (sounding config decoder plain batch), ?_, ?_⟩
  · have hplain : ∀ batch ∈ commands.splitOn .flush, ∀ c ∈ batch, c ≠ .flush ∧ c ≠ .stop := by
      intro batch hbatch c hc
      obtain ⟨hflush, hmem⟩ := flush_not_mem_split hbatch
      exact ⟨fun h => hflush (h ▸ hc), fun h => hstop (h ▸ hmem c hc)⟩
    have hreplay := replay_segments config decoder hn _ hplain
    rwa [List.intercalate_splitOn] at hreplay
  · rw [List.forall₂_map_right_iff]
    exact List.forall₂_same.mpr fun batch _ => released_plays hn _

/-- An undecodable packet among the two of the first segment, and one packet after the flush. -/
theorem segments_played_flushed :
    ∃ segments, outputs (replay longPackets shortDecoder plain (.new 2)
        [.frame 0 shortPacket, .frame 8820 [], .silence 17640, .flush, .silence 26460]).1 =
        [.flush].intercalate segments ∧
      List.Forall₂ (fun batch => Plays 2 (sounding longPackets shortDecoder plain batch))
        ([.frame 0 shortPacket, .frame 8820 [], .silence 17640, .flush,
          .silence 26460].splitOn .flush) segments :=
  segments_played longPackets shortDecoder 2 (by decide) _ (by decide)

end OpenAirplay.Player
