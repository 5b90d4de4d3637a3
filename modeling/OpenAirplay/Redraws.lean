import OpenAirplay.DrawnArtwork

/-!
# Redraws with nothing new to draw

How often one image is drawn while the loop wants it in one place, and what counts as drawn
behind each redraw.
-/

namespace OpenAirplay.Tui

set_option autoImplicit false

section Redraw

variable (coders : Images.Coders) (images : Images.Protocol)

/-- The wanted artwork, unless there is none or none that can be drawn. -/
def settled (wanted : Option DrawnArtwork) : Option DrawnArtwork :=
  wanted.filter fun w => (w.draw coders images).isSome

/-- What one redraw does where `drawn` is on the screen. -/
structure Spec (drawn : Option DrawnArtwork) (r : Redraw) : Prop where
  settled : r.failed = false → r.drawn = settled coders images r.wanted
  called : r.attempted = true → ∃ w, r.wanted = some w ∧ images ≠ .none ∧ drawn ≠ some w
  calls : ∀ w, r.wanted = some w → images ≠ .none → drawn ≠ some w →
    drawn = none ∨ r.failed = false → r.attempted = true

variable {coders images}

theorem draw_none (d : DrawnArtwork) : d.draw coders .none = none := ite_self _

theorem settled_none : settled coders images none = none := rfl

theorem settled_of_some {w : DrawnArtwork} {escape : Bytes}
    (h : w.draw coders images = some escape) : settled coders images (some w) = some w := by
  rw [settled, Option.filter_some, h]
  rfl

theorem settled_of_none {w : DrawnArtwork} (h : w.draw coders images = none) :
    settled coders images (some w) = none := by
  rw [settled, Option.filter_some, h]
  rfl

/-- What is settled once stays so. -/
theorem settled_settled (wanted : Option DrawnArtwork) :
    settled coders images (settled coders images wanted) = settled coders images wanted := by
  cases wanted with
  | none => rfl
  | some w =>
    cases hdraw : w.draw coders images with
    | none => rw [settled_of_none hdraw, settled_none]
    | some escape => rw [settled_of_some hdraw, settled_of_some hdraw]

theorem drawArtwork_spec {drawn : Option DrawnArtwork}
    (hdrawn : settled coders images drawn = drawn) (artwork : Option Artwork) (area : Rect)
    (io : Io) :
    Spec coders images drawn (drawArtwork coders images artwork area drawn io) := by
  unfold drawArtwork
  by_cases himages : images = .none
  · subst himages
    have hnone : ∀ wanted, settled coders .none wanted = none := by
      intro wanted
      cases wanted with
      | none => rfl
      | some w => exact settled_of_none (draw_none w)
    rw [if_pos rfl]
    refine ⟨fun _ => ?_, fun h => ?_, fun w _ h => absurd rfl h⟩
    · rw [hnone, ← hdrawn, hnone]
    · cases h
  rw [if_neg himages]
  by_cases hsame : wantedArtwork artwork area = drawn
  · rw [if_pos hsame]
    refine ⟨fun _ => ?_, fun h => ?_, fun w hw _ hne => ?_⟩
    · change drawn = settled coders images (wantedArtwork artwork area)
      rw [hsame, hdrawn]
    · cases h
    · exact absurd (hsame ▸ hw) hne
  rw [if_neg hsame]
  have hempty : drawn = none → (if drawn.isSome then (Images.clear images).toList else []) = [] := by
    rintro rfl
    rfl
  generalize (if drawn.isSome then (Images.clear images).toList else []) = cleared at hempty
  by_cases hclear : cleared.all io.write = true
  · simp only [if_pos hclear]
    cases hwanted : wantedArtwork artwork area with
    | none =>
      refine ⟨fun h => ?_, fun h => ?_, fun w hw => ?_⟩
      · change io.flush.not = false at h
        rw [Bool.not_eq_false'] at h
        exact if_pos h
      · cases h
      · cases hw
    | some w =>
      have hne : drawn ≠ some w := fun h => hsame (hwanted.trans h.symm)
      cases hdraw : w.draw coders images with
      | none =>
        simp only [hdraw]
        exact ⟨fun _ => (settled_of_none hdraw).symm, fun _ => ⟨w, rfl, himages, hne⟩,
          fun _ _ _ _ _ => rfl⟩
      | some escape =>
        simp only [hdraw]
        by_cases hio : (io.write escape && io.flush) = true
        · rw [if_pos hio]
          exact ⟨fun _ => (settled_of_some hdraw).symm, fun _ => ⟨w, rfl, himages, hne⟩,
            fun _ _ _ _ _ => rfl⟩
        · rw [if_neg hio]
          refine ⟨fun h => ?_, fun _ => ⟨w, rfl, himages, hne⟩, fun _ _ _ _ _ => rfl⟩
          cases h
  · simp only [if_neg hclear]
    refine ⟨fun h => ?_, fun h => ?_, fun w _ _ _ h => ?_⟩
    · cases h
    · cases h
    · rcases h with hnone | h
      · rw [hempty hnone] at hclear
        exact absurd rfl hclear
      · cases h

end Redraw

/-! ## The redraws of a run -/

section Log

variable {coders : Images.Coders} {images : Images.Protocol}

/-- One redraw behind another. -/
def Follows (coders : Images.Coders) (images : Images.Protocol) (r r' : Redraw) : Prop :=
  r.failed = false ∧ r.drawn = settled coders images r.wanted ∧ Spec coders images r.drawn r'

/-- It is a redraw where something that can be drawn, or nothing, is on the screen. -/
def Sound (coders : Images.Coders) (images : Images.Protocol) (r : Redraw) : Prop :=
  ∃ drawn, settled coders images drawn = drawn ∧ Spec coders images drawn r

theorem eventLoop_log (setup : Setup) (s : Screen) {drawn : Option DrawnArtwork}
    (hdrawn : settled setup.coders setup.images drawn = drawn) (turns : List Turn) :
    let log := (eventLoop setup s drawn turns).1
    (∀ r ∈ log.head?, Spec setup.coders setup.images drawn r) ∧
      log.IsChain (Follows setup.coders setup.images) ∧
      ∀ r ∈ log, Sound setup.coders setup.images r := by
  induction turns generalizing s drawn with
  | nil => simp [eventLoop]
  | cons turn turns ih =>
    cases hframe : turn.frame with
    | none => simp [eventLoop, hframe]
    | some frame =>
      simp only [eventLoop, hframe]
      have hspec := drawArtwork_spec hdrawn s.artwork (s.render setup.floats setup.cells frame)
        turn.io
      generalize drawArtwork setup.coders setup.images s.artwork
        (s.render setup.floats setup.cells frame) drawn turn.io = redraw at hspec
      have hsound : Sound setup.coders setup.images redraw := ⟨drawn, hdrawn, hspec⟩
      have hone : (∀ r ∈ [redraw].head?, Spec setup.coders setup.images drawn r) ∧
          [redraw].IsChain (Follows setup.coders setup.images) ∧
          ∀ r ∈ [redraw], Sound setup.coders setup.images r := by
        simpa [hspec] using hsound
      cases hfailed : redraw.failed with
      | true => exact hone
      | false =>
        cases hwake : wakeUp setup.decode s turn.wake with
        | error exit => exact hone
        | ok next =>
          have hsettled := hspec.settled hfailed
          have hstays : settled setup.coders setup.images redraw.drawn = redraw.drawn := by
            rw [hsettled, settled_settled]
          obtain ⟨hhead, hchain, hall⟩ := ih next hstays
          simp only [Bool.false_eq_true, if_false]
          refine ⟨by simpa using hspec, ?_, ?_⟩
          · rw [List.isChain_cons]
            exact ⟨fun r hr => ⟨hfailed, hsettled, hhead r hr⟩, hchain⟩
          · rw [List.forall_mem_cons]
            exact ⟨hsound, hall⟩

/-- Every element behind the first has one before it. -/
theorem exists_pair_within {A : Type} {x r : A} {xs : List A} (h : r ∈ xs) :
    ∃ p, [p, r] <:+: x :: xs := by
  obtain ⟨a, b, rfl⟩ := List.append_of_mem h
  obtain ⟨init, p, hinit⟩ := (List.eq_nil_or_concat' (x :: a)).resolve_left (List.cons_ne_nil _ _)
  refine ⟨p, init, b, ?_⟩
  rw [← List.cons_append, hinit]
  simp

/-- While it wants one image in one place it calls `draw` at most once. -/
def Once (log : List Redraw) : Prop :=
  ∀ stretch, stretch <:+: log → (∀ r ∈ stretch, ∀ r' ∈ stretch, r.wanted = r'.wanted) →
    (stretch.filter Redraw.attempted).length ≤ 1

/-- Two redraws in a row that want what cannot be drawn. -/
def Repeats (coders : Images.Coders) (images : Images.Protocol) (log : List Redraw) : Prop :=
  ∃ r r' w, [r, r'] <:+: log ∧ r.wanted = some w ∧ r'.wanted = some w ∧ images ≠ .none ∧
    w.draw coders images = none

theorem once_iff {log : List Redraw} (hall : ∀ r ∈ log, Sound coders images r)
    (hchain : log.IsChain (Follows coders images)) : Once log ↔ ¬Repeats coders images log := by
  have hpair : ∀ {r r' : Redraw}, [r, r'] <:+: log → Follows coders images r r' := by
    intro r r' hwithin
    exact List.isChain_pair.mp ( List.IsChain.infix hchain hwithin)
  constructor
  · rintro honce ⟨r, r', w, hwithin, hr, hr', himages, hdraw⟩
    have hundrawn := settled_of_none hdraw
    obtain ⟨hfailed, hsettled, hnext⟩ := hpair hwithin
    have hagain : r'.attempted = true := by
      rw [hr, hundrawn] at hsettled
      refine hnext.calls w hr' himages ?_ (.inl hsettled)
      rw [hsettled]
      exact (Option.some_ne_none w).symm
    have hfirst : r.attempted = true := by
      obtain ⟨drawn, hdrawn, hspec⟩ := hall r (hwithin.mem List.mem_cons_self)
      refine hspec.calls w hr himages ?_ (.inr hfailed)
      rintro rfl
      rw [hundrawn] at hdrawn
      cases hdrawn
    have hle := honce [r, r'] hwithin (by simp [hr, hr'])
    simp [hfirst, hagain] at hle
  · intro hnever stretch hwithin hsame
    cases stretch with
    | nil => simp
    | cons first stretch =>
      have hrest : ∀ r ∈ stretch, ¬r.attempted = true := by
        intro r hr hattempted
        obtain ⟨p, hp⟩ := exists_pair_within (x := first) hr
        obtain ⟨_, hsettled, hspec⟩ := hpair (hp.trans hwithin)
        obtain ⟨w, hw, himages, hne⟩ := hspec.called hattempted
        have hpw : p.wanted = some w := by
          rw [← hw]
          exact hsame p (hp.mem List.mem_cons_self) r (List.mem_cons_of_mem _ hr)
        apply hnever
        refine ⟨p, r, w, hp.trans hwithin, hpw, hw, himages, ?_⟩
        rw [hsettled, hpw] at hne
        cases hdraw : w.draw coders images with
        | none => rfl
        | some escape => exact absurd (settled_of_some hdraw) hne
      rw [List.filter_cons, List.filter_eq_nil_iff.mpr hrest]
      split
      · exact le_rfl
      · exact Nat.zero_le 1

/-- In every run `draw` is called at most once while nothing changes, and what counts as drawn
is the artwork that is wanted or none, exactly when no redraw asks again for what cannot be
drawn. -/
theorem redraws_iff (setup : Setup) (endpoint : String) (turns : List Turn) :
    let log := (eventLoop setup (Screen.new endpoint setup.images) none turns).1
    (Once log ∧ ∀ r ∈ log, r.failed = false →
        r.drawn = settled setup.coders setup.images r.wanted) ↔
      ¬Repeats setup.coders setup.images log := by
  intro log
  obtain ⟨_, hchain, hall⟩ := eventLoop_log setup (Screen.new endpoint setup.images)
    settled_none turns
  rw [once_iff hall hchain, and_iff_left_iff_imp]
  intro _ r hr hfailed
  obtain ⟨_, _, hspec⟩ := hall r hr
  exact hspec.settled hfailed

/-! ## A picture that cannot be drawn -/

def brokenSetup : Setup where
  decode := fun _ => some [1, 2, 3]
  coders := ⟨id, fun _ => none⟩
  floats := ⟨fun _ => "", fun _ _ _ => 0⟩
  cells := ⟨fun area top text =>
    ({ area with height := BitVec.ofNat 16 top },
      { area with y := area.y + BitVec.ofNat 16 top, height := BitVec.ofNat 16 text }),
    fun n => 2 * n⟩
  images := .kitty

def quietTurn (wake : Wake) : Turn := ⟨some ⟨0, 0, 60, 20⟩, ⟨fun _ => true, true⟩, wake⟩

def brokenTurns : List Turn :=
  [quietTurn (.update (some .connected)),
    quietTurn (.update (some (.message (.artwork "image/jpeg" "AQID")))), quietTurn .tick,
    quietTurn .tick]

def brokenLog : List Redraw :=
  (eventLoop brokenSetup (Screen.new "ws://host:7392" .kitty) none brokenTurns).1

/-- Broken artwork is decoded again on every tick. -/
theorem broken_artwork_retried :
    brokenLog.map Redraw.attempted = [false, false, true, true] ∧
      ¬∀ (setup : Setup) (endpoint : String) (turns : List Turn),
        let log := (eventLoop setup (Screen.new endpoint setup.images) none turns).1
        Once log ∧ ∀ r ∈ log, r.failed = false →
          r.drawn = settled setup.coders setup.images r.wanted := by
  refine ⟨by decide +kernel, ?_⟩
  intro hall
  obtain ⟨honce, _⟩ := hall brokenSetup "ws://host:7392" brokenTurns
  have hsame : ∀ r ∈ brokenLog.drop 2, ∀ r' ∈ brokenLog.drop 2, r.wanted = r'.wanted := by
    decide +kernel
  have htwice : ((brokenLog.drop 2).filter Redraw.attempted).length = 2 := by decide +kernel
  have hle := honce (brokenLog.drop 2) (List.drop_suffix 2 _).isInfix hsame
  rw [htwice] at hle
  exact absurd hle (by decide)

end Log

end OpenAirplay.Tui
