import DemandTransport.Proofs.Energy.Pieces

/-!
# Limiting a curve takes a minimum

The rate along the pieces is the smaller one of the rate of the curve and the limit. A segment that
does not cross the limit is moved under it at both ends, and between them the minimum is as straight
as the segment is; one that crosses the limit is two segments that do not. The two differ exactly
where the width of a piece or a segment decides: a piece that is too narrow to count has one rate
all along, and in the place of a segment that is too narrow the next one is read.
-/

namespace DemandTransport

/-! ## Lines -/

namespace CurvePoint

variable {a b : CurvePoint Rat} {limit s x : Rat}

theorem lineTo_left (a b : CurvePoint Rat) : a.lineTo b a.soc = a.rate := by
  simp [lineTo]

theorem lineTo_right (h : a.soc < b.soc) : a.lineTo b b.soc = b.rate := by
  have hwidth : b.soc - a.soc ≠ 0 := (sub_pos.mpr h).ne'
  rw [lineTo, mul_div_cancel_right₀ _ hwidth, add_sub_cancel]

theorem lineTo_flat (h : a.rate = b.rate) (s : Rat) : a.lineTo b s = b.rate := by
  simp [lineTo, h]

/-- A line has the rate of its end there only, unless it is flat. -/
theorem lineTo_eq_right_iff (h : a.soc < b.soc) :
    a.lineTo b s = b.rate ↔ a.rate = b.rate ∨ s = b.soc := by
  constructor
  · intro hline
    have hmul := lineTo_mul h s
    rw [hline] at hmul
    have hzero : (b.rate - a.rate) * (b.soc - s) = 0 := by linarith
    rcases mul_eq_zero.mp hzero with hflat | hend
    · exact .inl (sub_eq_zero.mp hflat).symm
    · exact .inr (sub_eq_zero.mp hend).symm
  · rintro (hflat | rfl)
    · exact lineTo_flat hflat s
    · exact lineTo_right h

theorem lineTo_le (h : a.soc < b.soc) (ha : a.rate ≤ limit) (hb : b.rate ≤ limit)
    (hfrom : a.soc ≤ s) (hto : s ≤ b.soc) : a.lineTo b s ≤ limit := by
  refine le_of_mul_le_mul_right ?_ (sub_pos.mpr h)
  rw [lineTo_mul h]
  have hleft := mul_le_mul_of_nonneg_right ha (sub_nonneg.mpr hto)
  have hright := mul_le_mul_of_nonneg_right hb (sub_nonneg.mpr hfrom)
  linarith

theorem le_lineTo (h : a.soc < b.soc) (ha : limit ≤ a.rate) (hb : limit ≤ b.rate)
    (hfrom : a.soc ≤ s) (hto : s ≤ b.soc) : limit ≤ a.lineTo b s := by
  refine le_of_mul_le_mul_right ?_ (sub_pos.mpr h)
  rw [lineTo_mul h]
  have hleft := mul_le_mul_of_nonneg_right ha (sub_nonneg.mpr hto)
  have hright := mul_le_mul_of_nonneg_right hb (sub_nonneg.mpr hfrom)
  linarith

/-- A line is the same up to one of its points and from there on. -/
theorem lineTo_split (hfrom : a.soc < x) (hto : x < b.soc) (s : Rat) :
    a.lineTo ⟨x, a.lineTo b x⟩ s = a.lineTo b s ∧
      CurvePoint.lineTo ⟨x, a.lineTo b x⟩ b s = a.lineTo b s := by
  have hwhole : b.soc - a.soc ≠ 0 := (sub_pos.mpr (hfrom.trans hto)).ne'
  have hbefore : x - a.soc ≠ 0 := (sub_pos.mpr hfrom).ne'
  have hbehind : b.soc - x ≠ 0 := (sub_pos.mpr hto).ne'
  unfold lineTo
  constructor
  · field_simp
    ring
  · field_simp
    ring

/-- A point moved under a limit. -/
def under (limit : Rat) (a : CurvePoint Rat) : CurvePoint Rat :=
  ⟨a.soc, min a.rate limit⟩

theorem under_of_le (h : a.rate ≤ limit) : a.under limit = a := by
  rw [under, min_eq_left h]

/-- Moving both ends of a line under a limit takes the minimum, if the line does not cross it. -/
theorem lineTo_under (h : a.soc < b.soc)
    (hside : a.rate ≤ limit ∧ b.rate ≤ limit ∨ limit ≤ a.rate ∧ limit ≤ b.rate)
    (hfrom : a.soc ≤ s) (hto : s ≤ b.soc) :
    (a.under limit).lineTo (b.under limit) s = min (a.lineTo b s) limit := by
  rcases hside with ⟨ha, hb⟩ | ⟨ha, hb⟩
  · rw [under_of_le ha, under_of_le hb, min_eq_left (lineTo_le h ha hb hfrom hto)]
  · have hflat : (a.under limit).rate = (b.under limit).rate := by
      rw [under, under, min_eq_right ha, min_eq_right hb]
    rw [lineTo_flat hflat, min_eq_right (le_lineTo h ha hb hfrom hto), under, min_eq_right hb]

end CurvePoint

/-- What lies behind the begin of a stretch, up to its end; empty belongs to a stretch that begins
there. -/
def Covers (lo hi s : Rat) : Prop :=
  (lo < s ∨ lo = 0 ∧ s = 0) ∧ s ≤ hi

theorem Covers.le {lo hi s : Rat} (h : Covers lo hi s) : lo ≤ s := by
  rcases h.1 with hlt | ⟨hlo, hs⟩
  · exact hlt.le
  · exact (hlo.trans hs.symm).le

namespace Piece

variable {a b : CurvePoint Rat} {limit s : Rat}

/-- The piece between two points. -/
def between (a b : CurvePoint Rat) : Piece Rat :=
  ⟨a.soc, a.rate, b.soc, b.rate⟩

/-- The rate does not depend on whether the piece is wide enough to count. -/
def Exact (p : Piece Rat) (s : Rat) : Prop :=
  negligible < p.toSoc - p.fromSoc ∨ p.fromRate = p.toRate ∨ s = p.toSoc

instance (p : Piece Rat) (s : Rat) : Decidable (p.Exact s) :=
  inferInstanceAs (Decidable (_ ∨ _))

theorem rateAt_between_of_wide (h : negligible < b.soc - a.soc) (s : Rat) :
    (between a b).rateAt s = a.lineTo b s :=
  if_neg (not_le.mpr h)

/-- The rate is on the line through the two points if and only if the width does not matter. -/
theorem rateAt_between_iff (h : a.soc < b.soc) :
    (between a b).rateAt s = a.lineTo b s ↔ (between a b).Exact s := by
  by_cases hwide : negligible < b.soc - a.soc
  · exact iff_of_true (rateAt_between_of_wide hwide s) (.inl hwide)
  · have hrate : (between a b).rateAt s = b.rate := rateAt_of_narrow (not_lt.mp hwide) s
    have hexact : (between a b).Exact s ↔ a.rate = b.rate ∨ s = b.soc := or_iff_right hwide
    rw [hrate, hexact, eq_comm, CurvePoint.lineTo_eq_right_iff h]

/-- The piece between two points moved under a limit. -/
def under (limit : Rat) (a b : CurvePoint Rat) : Piece Rat :=
  between (a.under limit) (b.under limit)

/-- Between two points on one side of the limit the rate is the minimum if and only if the width
does not matter. -/
theorem rateAt_under_iff (h : a.soc < b.soc)
    (hside : a.rate ≤ limit ∧ b.rate ≤ limit ∨ limit ≤ a.rate ∧ limit ≤ b.rate)
    (hfrom : a.soc ≤ s) (hto : s ≤ b.soc) :
    (under limit a b).rateAt s = min (a.lineTo b s) limit ↔ (under limit a b).Exact s := by
  rw [← CurvePoint.lineTo_under h hside hfrom hto]
  exact rateAt_between_iff h

end Piece

namespace LimitedCurve

variable {a b : CurvePoint Rat} {limit s : Rat}

/-! ## Segments -/

theorem crossing_lineTo (hlasts : a.soc < b.soc)
    (hcross : (a.rate - limit) * (b.rate - limit) < 0) :
    a.lineTo b (crossing limit a b) = limit := by
  have hwidth : b.soc - a.soc ≠ 0 := (sub_pos.mpr hlasts).ne'
  have hchange := change_ne_zero_of_crosses hcross
  unfold CurvePoint.lineTo crossing
  field_simp
  ring

theorem same_side_of_not_crosses (h : ¬(a.rate - limit) * (b.rate - limit) < 0) :
    a.rate ≤ limit ∧ b.rate ≤ limit ∨ limit ≤ a.rate ∧ limit ≤ b.rate := by
  rw [crosses_iff, not_or] at h
  rcases lt_trichotomy a.rate limit with hbelow | hon | habove
  · exact .inl ⟨hbelow.le, not_lt.mp fun hb => h.1 ⟨hbelow, hb⟩⟩
  · exact (le_total b.rate limit).imp (⟨hon.le, ·⟩) (⟨hon.ge, ·⟩)
  · exact .inr ⟨habove.le, not_lt.mp fun hb => h.2 ⟨habove, hb⟩⟩

/-- A segment that crosses the limit falls into the two that do not. -/
theorem piecesOf_crossing (hwide : Piece.negligible < b.soc - a.soc)
    (hcross : (a.rate - limit) * (b.rate - limit) < 0) :
    piecesOf limit a b =
      [Piece.under limit a ⟨crossing limit a b, limit⟩,
        Piece.under limit ⟨crossing limit a b, limit⟩ b] := by
  unfold piecesOf
  rw [if_neg (not_le.mpr hwide), if_pos hcross]
  simp only [Trajectory.lesser_eq_min, Piece.under, Piece.between, CurvePoint.under, min_self]
  rfl

theorem piecesOf_same_side (hwide : Piece.negligible < b.soc - a.soc)
    (hside : ¬(a.rate - limit) * (b.rate - limit) < 0) :
    piecesOf limit a b = [Piece.under limit a b] := by
  unfold piecesOf
  rw [if_neg (not_le.mpr hwide), if_neg hside]
  simp only [Trajectory.lesser_eq_min]
  rfl

/-- The first piece of a segment that does not end before a state of charge has the rate that is the
minimum if and only if its width does not matter. -/
theorem piecesOf_find? (hwide : Piece.negligible < b.soc - a.soc) (hcovers : Covers a.soc b.soc s) :
    ∃ p, (piecesOf limit a b).find? (fun p => s ≤ p.toSoc) = some p ∧
      Covers p.fromSoc p.toSoc s ∧ (p.rateAt s = min (a.lineTo b s) limit ↔ p.Exact s) := by
  have hlasts : a.soc < b.soc := Piece.lt_of_wide hwide
  by_cases hcross : (a.rate - limit) * (b.rate - limit) < 0
  · obtain ⟨hfrom, hto⟩ := crossing_between hlasts hcross
    obtain ⟨hbefore, hbehind⟩ := CurvePoint.lineTo_split hfrom hto s
    rw [crossing_lineTo hlasts hcross] at hbefore hbehind
    rw [piecesOf_crossing hwide hcross]
    generalize crossing limit a b = cut at *
    by_cases hs : s ≤ cut
    · have hside : a.rate ≤ limit ∧ limit ≤ limit ∨ limit ≤ a.rate ∧ limit ≤ limit := by
        simpa using le_total a.rate limit
      refine ⟨_, List.find?_cons_of_pos (decide_eq_true hs), ⟨hcovers.1, hs⟩, ?_⟩
      rw [← hbefore]
      exact Piece.rateAt_under_iff hfrom hside hcovers.le hs
    · have hside : limit ≤ limit ∧ b.rate ≤ limit ∨ limit ≤ limit ∧ limit ≤ b.rate := by
        simpa using le_total b.rate limit
      rw [List.find?_cons_of_neg (by simpa [Piece.under, Piece.between, CurvePoint.under] using hs)]
      rw [not_le] at hs
      refine ⟨_, List.find?_cons_of_pos (decide_eq_true hcovers.2), ⟨.inl hs, hcovers.2⟩, ?_⟩
      rw [← hbehind]
      exact Piece.rateAt_under_iff hto hside hs.le hcovers.2
  · rw [piecesOf_same_side hwide hcross]
    refine ⟨_, List.find?_cons_of_pos (decide_eq_true hcovers.2), hcovers, ?_⟩
    exact Piece.rateAt_under_iff hlasts (same_side_of_not_crosses hcross) hcovers.le hcovers.2

/-- The first piece of a segment begins where the segment does, under the limit. -/
theorem piecesOf_head? (hwide : Piece.negligible < b.soc - a.soc) :
    ∃ e, (piecesOf limit a b).head? = some (Piece.between (a.under limit) e) ∧ a.soc < e.soc := by
  have hlasts : a.soc < b.soc := Piece.lt_of_wide hwide
  by_cases hcross : (a.rate - limit) * (b.rate - limit) < 0
  · rw [piecesOf_crossing hwide hcross]
    exact ⟨_, rfl, (crossing_between hlasts hcross).1⟩
  · rw [piecesOf_same_side hwide hcross]
    exact ⟨_, rfl, hlasts⟩

/-- A segment has a piece that does not end before a state of charge if it is wide enough to count
and does not end before it either. -/
theorem piecesOf_find?_isSome_iff :
    ((piecesOf limit a b).find? fun p => s ≤ p.toSoc).isSome ↔
      Piece.negligible < b.soc - a.soc ∧ s ≤ b.soc := by
  rw [List.find?_isSome]
  constructor
  · rintro ⟨p, hp, hs⟩
    refine ⟨not_le.mp fun hnarrow => ?_, (of_decide_eq_true hs).trans (piecesOf_toSoc_le p hp)⟩
    rw [piecesOf, if_pos hnarrow] at hp
    exact List.not_mem_nil hp
  · rintro ⟨hwide, hs⟩
    by_cases hcross : (a.rate - limit) * (b.rate - limit) < 0
    · rw [piecesOf_crossing hwide hcross]
      exact ⟨_, List.mem_cons_of_mem _ List.mem_cons_self, decide_eq_true hs⟩
    · rw [piecesOf_same_side hwide hcross]
      exact ⟨_, List.mem_cons_self, decide_eq_true hs⟩

/-- The piece of a state of charge is one of the first segment that is wide enough to count. -/
theorem find?_flatMap_piecesOf (limit s : Rat) (segments : List (CurvePoint Rat × CurvePoint Rat)) :
    (segments.flatMap fun ends => piecesOf limit ends.1 ends.2).find? (fun p => s ≤ p.toSoc) =
      (segments.find? fun ends => Piece.negligible < ends.2.soc - ends.1.soc ∧ s ≤ ends.2.soc).bind
        fun ends => (piecesOf limit ends.1 ends.2).find? fun p => s ≤ p.toSoc := by
  induction segments with
  | nil => rfl
  | cons ends rest ih =>
    have hfirst := @piecesOf_find?_isSome_iff ends.1 ends.2 limit s
    rw [List.flatMap_cons, List.find?_append]
    by_cases hcounts : Piece.negligible < ends.2.soc - ends.1.soc ∧ s ≤ ends.2.soc
    · rw [List.find?_cons_of_pos (by simpa using hcounts), Option.or_of_isSome (hfirst.mpr hcounts)]
      rfl
    · have hnone := Option.not_isSome_iff_eq_none.mp (mt hfirst.mp hcounts)
      rw [List.find?_cons_of_neg (by simpa using hcounts), hnone, Option.none_or, ih]

end LimitedCurve

/-! ## Curves -/

namespace Curve

variable {curve : Curve Rat} {a b c d : CurvePoint Rat} {s : Rat}

/-- The segment that the rate at a state of charge is read off: the first one that does not end
before it. -/
def segmentAt? (curve : Curve Rat) (s : Rat) : Option (CurvePoint Rat × CurvePoint Rat) :=
  curve.segments.find? fun ends => s ≤ ends.2.soc

/-- The first segment that is wide enough to count and does not end before a state of charge. -/
def wideSegmentAt? (curve : Curve Rat) (s : Rat) : Option (CurvePoint Rat × CurvePoint Rat) :=
  curve.segments.find? fun ends => Piece.negligible < ends.2.soc - ends.1.soc ∧ s ≤ ends.2.soc

theorem rateAt_of_segmentAt? (hs : 0 ≤ s) (hfull : s ≤ 1)
    (hsegment : curve.segmentAt? s = some (a, b)) :
    curve.rateAt s = if b.soc ≤ a.soc then b.rate else a.lineTo b s := by
  have hfound : (curve.segments.find? fun (_, b) => s ≤ b.soc) = some (a, b) := hsegment
  unfold rateAt
  rw [Scalar.clamp_of_mem hs hfull]
  dsimp only
  rw [hfound]
  rfl

/-- A segment, with or without a width, has the rate of its end there. -/
theorem rateAt_of_end (hs : 0 ≤ s) (hfull : s ≤ 1) (hsegment : curve.segmentAt? s = some (a, b))
    (hend : b.soc = s) : curve.rateAt s = b.rate := by
  rw [rateAt_of_segmentAt? hs hfull hsegment]
  by_cases hnone : b.soc ≤ a.soc
  · exact if_pos hnone
  · rw [if_neg hnone, ← hend, CurvePoint.lineTo_right (not_le.mp hnone)]

/-- Every state of charge lies in a segment. -/
theorem Sound.exists_segmentAt? (h : curve.Sound) (hfull : s ≤ 1) :
    ∃ a b, curve.segmentAt? s = some (a, b) := by
  have hlast : (curve.segmentAt? s).isSome := by
    refine List.find?_isSome.mpr ⟨(curve.taper, curve.full), by simp [segments], ?_⟩
    exact decide_eq_true (h.full ▸ hfull)
  obtain ⟨⟨a, b⟩, hsegment⟩ := Option.isSome_iff_exists.mp hlast
  exact ⟨a, b, hsegment⟩

/-- Each segment begins where the one before it ends. -/
theorem segments_isChain (curve : Curve Rat) :
    curve.segments.IsChain fun ends later => ends.2 = later.1 := by
  simp [segments]

/-- The segment of a state of charge is the first one or begins before it. -/
theorem begins_of_segmentAt? (hsegment : curve.segmentAt? s = some (a, b)) :
    a = curve.empty ∨ a.soc < s := by
  obtain ⟨-, before, after, hsplit, hbefore⟩ := List.find?_eq_some_iff_append.mp hsegment
  rcases before.eq_nil_or_concat with rfl | ⟨before, last, rfl⟩
  · obtain ⟨hends, -⟩ := List.cons.inj hsplit
    exact .inl (congrArg Prod.fst hends).symm
  · have hchain := curve.segments_isChain
    rw [hsplit, List.concat_eq_append, List.append_assoc] at hchain
    obtain ⟨-, hjoined, -⟩ := List.isChain_append_cons_cons.mp hchain
    have hpassed := hbefore last (by simp)
    rw [hjoined] at hpassed
    exact .inr (by simpa using hpassed)

/-- The segment of a state of charge begins before it, or where the battery is empty. -/
theorem Sound.covers_of_segmentAt? (h : curve.Sound) (hs : 0 ≤ s)
    (hsegment : curve.segmentAt? s = some (a, b)) : Covers a.soc b.soc s := by
  have hto : s ≤ b.soc := of_decide_eq_true (List.find?_eq_some_iff_append.mp hsegment).1
  refine ⟨?_, hto⟩
  rcases begins_of_segmentAt? hsegment with rfl | hfrom
  · rw [h.empty]
    exact hs.lt_or_eq.imp_right fun hzero => ⟨rfl, hzero.symm⟩
  · exact .inl hfrom

/-- A segment that is wide enough to count is looked up as it is read. -/
theorem wideSegmentAt?_of_wide (hsegment : curve.segmentAt? s = some (a, b))
    (hwide : Piece.negligible < b.soc - a.soc) : curve.wideSegmentAt? s = some (a, b) := by
  obtain ⟨hto, before, after, hsplit, hbefore⟩ := List.find?_eq_some_iff_append.mp hsegment
  refine List.find?_eq_some_iff_append.mpr
    ⟨by simpa using ⟨hwide, of_decide_eq_true hto⟩, before, after, hsplit, fun ends hends => ?_⟩
  have hpassed := hbefore ends hends
  simp only [Bool.not_eq_true', decide_eq_false_iff_not] at hpassed ⊢
  exact mt And.right hpassed

theorem Sound.segments_pairwise (h : curve.Sound) :
    curve.segments.Pairwise fun ends later => ends.2.soc ≤ later.1.soc := by
  have hplateau := h.ordered (curve.plateau, curve.taper) (by simp [segments])
  simpa [segments] using hplateau

/-- In the place of a segment that is too narrow to count stands one behind it. -/
theorem Sound.follows_of_narrow (h : curve.Sound) (hsegment : curve.segmentAt? s = some (a, b))
    (hnarrow : b.soc - a.soc ≤ Piece.negligible) (hwide : curve.wideSegmentAt? s = some (c, d)) :
    Piece.negligible < d.soc - c.soc ∧ b.soc ≤ c.soc := by
  obtain ⟨-, before, after, hsplit, hbefore⟩ := List.find?_eq_some_iff_append.mp hsegment
  obtain ⟨hcounts, hto⟩ : Piece.negligible < d.soc - c.soc ∧ s ≤ d.soc := by
    simpa using (List.find?_eq_some_iff_append.mp hwide).1
  refine ⟨hcounts, ?_⟩
  have hmem : (c, d) ∈ before ++ (a, b) :: after := hsplit ▸ List.mem_of_find?_eq_some hwide
  have hordered := h.segments_pairwise
  rw [hsplit] at hordered
  rcases List.mem_append.mp hmem with hpassed | hrest
  · have hends := hbefore _ hpassed
    simp only [Bool.not_eq_true', decide_eq_false_iff_not] at hends
    exact absurd hto hends
  rcases List.mem_cons.mp hrest with hsame | hafter
  · obtain ⟨rfl, rfl⟩ := Prod.mk.inj hsame
    exact absurd hcounts (not_lt.mpr hnarrow)
  · exact List.rel_of_pairwise_cons (List.pairwise_append.mp hordered).2.1 hafter

/-- Some segment is wide enough to count. -/
theorem Sound.exists_wide (h : curve.Sound) :
    ∃ ends ∈ curve.segments, Piece.negligible < ends.2.soc - ends.1.soc := by
  by_contra! hnarrow
  have hramp := hnarrow (curve.empty, curve.plateau) (by simp [segments])
  have hlevel := hnarrow (curve.plateau, curve.taper) (by simp [segments])
  have htaper := hnarrow (curve.taper, curve.full) (by simp [segments])
  have hwidth := Piece.negligible_eq
  rw [h.empty] at hramp
  rw [h.full] at htaper
  norm_num at hwidth
  linarith

end Curve

namespace LimitedCurve

variable {curve : Curve Rat} {a b c d : CurvePoint Rat} {capacity ratedKw s : Rat}

theorem find?_make (curve : Curve Rat) (capacity ratedKw s : Rat) :
    (make curve capacity ratedKw).pieces.find? (fun p => s ≤ p.toSoc) =
      (curve.wideSegmentAt? s).bind fun ends =>
        (piecesOf (ratedKw / capacity) ends.1 ends.2).find? fun p => s ≤ p.toSoc :=
  find?_flatMap_piecesOf (ratedKw / capacity) s curve.segments

theorem rateAt_of_find? {limited : LimitedCurve Rat} {p : Piece Rat} (hs : 0 ≤ s) (hfull : s ≤ 1)
    (hfound : limited.pieces.find? (fun p => s ≤ p.toSoc) = some p) :
    limited.rateAt s = p.rateAt s := by
  unfold rateAt
  rw [Scalar.clamp_of_mem hs hfull]
  dsimp only
  rw [hfound]
  rfl

/-- A curve that has passed its check has pieces. -/
theorem exists_getLast?_make (h : curve.Sound) (capacity ratedKw : Rat) :
    ∃ p, (make curve capacity ratedKw).pieces.getLast? = some p := by
  obtain ⟨ends, hends, hwide⟩ := h.exists_wide
  obtain ⟨e, hhead, -⟩ := @piecesOf_head? ends.1 ends.2 (ratedKw / capacity) hwide
  have hpiece : Piece.between (ends.1.under (ratedKw / capacity)) e ∈
      (make curve capacity ratedKw).pieces :=
    List.mem_flatMap.mpr ⟨ends, hends, List.mem_of_mem_head? hhead⟩
  exact ⟨_, List.getLast?_eq_some_getLast (List.ne_nil_of_mem hpiece)⟩

theorem rateAt_of_none {p : Piece Rat} (hs : 0 ≤ s) (hfull : s ≤ 1)
    (hnone : curve.wideSegmentAt? s = none)
    (hlast : (make curve capacity ratedKw).pieces.getLast? = some p) :
    (make curve capacity ratedKw).rateAt s = p.rateAt s := by
  have hfound := find?_make curve capacity ratedKw s
  rw [hnone, Option.bind_none] at hfound
  unfold rateAt
  rw [Scalar.clamp_of_mem hs hfull]
  dsimp only
  rw [hfound, hlast]
  rfl

/-- The rate at a charger is the smaller one of the rate of the curve and what the charger's power
means for the capacity. -/
def Clips (curve : Curve Rat) (capacity ratedKw s : Rat) : Prop :=
  (make curve capacity ratedKw).rateAt s = min (curve.rateAt s) (ratedKw / capacity)

/-- What is read at a state of charge in the segment from `a` to `b`. -/
structure Reads (curve : Curve Rat) (capacity ratedKw s : Rat) (a b : CurvePoint Rat) : Prop where
  /-- In a segment that is wide enough to count, the rate is the minimum if and only if it does not
  matter whether the piece around the state of charge is. -/
  wide : Piece.negligible < b.soc - a.soc →
    ∃ p ∈ piecesOf (ratedKw / capacity) a b, Covers p.fromSoc p.toSoc s ∧
      (Clips curve capacity ratedKw s ↔ p.Exact s)
  /-- In the place of a segment that is too narrow, the first piece of the next one that is not is
  read. If it begins at the state of charge, the rate is the minimum if and only if the limited
  curve does not jump there. -/
  narrow : b.soc - a.soc ≤ Piece.negligible → ∀ c d, curve.wideSegmentAt? s = some (c, d) →
    ∃ p, (piecesOf (ratedKw / capacity) c d).head? = some p ∧
      (make curve capacity ratedKw).rateAt s = p.rateAt s ∧
      (c.soc = s → p.Exact s →
        (Clips curve capacity ratedKw s ↔
          min c.rate (ratedKw / capacity) = min b.rate (ratedKw / capacity)))
  /-- If there is no next one, the last piece is read. -/
  last : b.soc - a.soc ≤ Piece.negligible → curve.wideSegmentAt? s = none →
    ∃ p, (make curve capacity ratedKw).pieces.getLast? = some p ∧
      (make curve capacity ratedKw).rateAt s = p.rateAt s

/-- The rate in a segment that is wide enough to count. -/
theorem clips_iff_of_wide (h : curve.Sound) (hs : 0 ≤ s) (hfull : s ≤ 1)
    (hsegment : curve.segmentAt? s = some (a, b)) (hwide : Piece.negligible < b.soc - a.soc) :
    ∃ p ∈ piecesOf (ratedKw / capacity) a b, Covers p.fromSoc p.toSoc s ∧
      (Clips curve capacity ratedKw s ↔ p.Exact s) := by
  obtain ⟨p, hfound, hcovers, hexact⟩ := @piecesOf_find? a b (ratedKw / capacity) s hwide
    (h.covers_of_segmentAt? hs hsegment)
  have hmake := find?_make curve capacity ratedKw s
  rw [Curve.wideSegmentAt?_of_wide hsegment hwide, Option.bind_some, hfound] at hmake
  refine ⟨p, List.mem_of_find?_eq_some hfound, hcovers, ?_⟩
  rw [Clips, rateAt_of_find? hs hfull hmake, Curve.rateAt_of_segmentAt? hs hfull hsegment,
    if_neg (not_le.mpr (Piece.lt_of_wide hwide))]
  exact hexact

/-- The rate in the place of a segment that is too narrow to count. -/
theorem clips_iff_of_narrow (h : curve.Sound) (hs : 0 ≤ s) (hfull : s ≤ 1)
    (hsegment : curve.segmentAt? s = some (a, b)) (hnarrow : b.soc - a.soc ≤ Piece.negligible)
    (hnext : curve.wideSegmentAt? s = some (c, d)) :
    ∃ p, (piecesOf (ratedKw / capacity) c d).head? = some p ∧
      (make curve capacity ratedKw).rateAt s = p.rateAt s ∧
      (c.soc = s → p.Exact s →
        (Clips curve capacity ratedKw s ↔
          min c.rate (ratedKw / capacity) = min b.rate (ratedKw / capacity))) := by
  obtain ⟨hwide, hbehind⟩ := h.follows_of_narrow hsegment hnarrow hnext
  have hcovers := h.covers_of_segmentAt? hs hsegment
  obtain ⟨e, hhead, hlasts⟩ := @piecesOf_head? c d (ratedKw / capacity) hwide
  have hmake := find?_make curve capacity ratedKw s
  obtain ⟨rest, hpieces⟩ := List.head?_eq_some_iff.mp hhead
  have hfound : (piecesOf (ratedKw / capacity) c d).find? (fun p => s ≤ p.toSoc) =
      some (Piece.between (c.under (ratedKw / capacity)) e) := by
    rw [hpieces]
    exact List.find?_cons_of_pos (decide_eq_true (hcovers.2.trans (hbehind.trans hlasts.le)))
  rw [hnext, Option.bind_some, hfound] at hmake
  have hrate := rateAt_of_find? hs hfull hmake
  refine ⟨_, hhead, hrate, fun hbegins hexact => ?_⟩
  have hleft : (Piece.between (c.under (ratedKw / capacity)) e).rateAt s =
      min c.rate (ratedKw / capacity) := by
    rw [(Piece.rateAt_between_iff (a := c.under (ratedKw / capacity)) hlasts).mpr hexact, ← hbegins]
    exact CurvePoint.lineTo_left _ e
  have hend : b.soc = s := le_antisymm (hbegins ▸ hbehind) hcovers.2
  rw [Clips, hrate, hleft, Curve.rateAt_of_end hs hfull hsegment hend]

/-- What is read for every curve that has passed its check, every charger and every state of charge.
In a segment that is wide enough to count the rate is the smaller one of the rate of the curve and
what the charger's power means for the capacity, unless the piece around the state of charge is too
narrow to count, changes the rate and does not end there. In the place of a segment that is too
narrow stands a piece of another one; where that piece begins, the rate is the minimum all the same
if the limited curve does not jump there. -/
theorem reads_of_make {name : String} {empty plateau taper full : CurvePoint Rat}
    (hcurve : Curve.make name empty plateau taper full = .ok curve) (hs : 0 ≤ s) (hfull : s ≤ 1) :
    ∃ a b, curve.segmentAt? s = some (a, b) ∧ Reads curve capacity ratedKw s a b := by
  have hsound := Curve.make_sound hcurve
  obtain ⟨a, b, hsegment⟩ := hsound.exists_segmentAt? hfull
  refine ⟨a, b, hsegment, ?_, ?_, ?_⟩
  · exact clips_iff_of_wide hsound hs hfull hsegment
  · exact fun hnarrow c d => clips_iff_of_narrow hsound hs hfull hsegment hnarrow
  · intro _ hnone
    obtain ⟨p, hlast⟩ := exists_getLast?_make hsound capacity ratedKw
    exact ⟨p, hlast, rateAt_of_none hs hfull hnone hlast⟩

/-- A charger of 50 kW limits a battery of 60 kWh with a preset curve on the plateau, and one that
is weaker than three points at which a battery is empty limits it to a minimum there. -/
theorem reads_of_make_weak :
    let tesla : Curve Rat := Curve.tesla
    let jumps : Curve Rat := ⟨"jumps", ⟨0, 1⟩, ⟨0, 2⟩, ⟨0, 3⟩, ⟨1, 1⟩⟩
    Clips tesla 60 50 0.3 ∧ 50 / 60 < tesla.rateAt 0.3 ∧
      Clips jumps 1 1 0 ∧ 1 < jumps.rateAt 0 := by
  intro tesla jumps
  refine ⟨?_, by decide +kernel, ?_, by decide +kernel⟩
  · have haccepted : tesla.fault? = none := Option.isNone_iff_eq_none.mp (by decide +kernel)
    have hlevel : tesla.segmentAt? 0.3 = some (tesla.plateau, tesla.taper) := by decide +kernel
    obtain ⟨a, b, hsegment, hreads⟩ := @reads_of_make tesla 60 50 0.3 _ _ _ _ _
      (Curve.make_of_fault? haccepted) (by decide +kernel) (by decide +kernel)
    obtain ⟨rfl, rfl⟩ := Prod.mk.inj (Option.some.inj (hsegment.symm.trans hlevel))
    obtain ⟨p, hp, -, hclips⟩ := hreads.wide (by decide +kernel)
    have hexact : ∀ p ∈ piecesOf (50 / 60) tesla.plateau tesla.taper, p.Exact 0.3 := by
      decide +kernel
    exact hclips.mpr (hexact p hp)
  · have haccepted : jumps.fault? = none := Option.isNone_iff_eq_none.mp (by decide +kernel)
    have hempty : jumps.segmentAt? 0 = some (jumps.empty, jumps.plateau) := by decide +kernel
    obtain ⟨a, b, hsegment, hreads⟩ := @reads_of_make jumps 1 1 0 _ _ _ _ _
      (Curve.make_of_fault? haccepted) (by decide +kernel) (by decide +kernel)
    obtain ⟨rfl, rfl⟩ := Prod.mk.inj (Option.some.inj (hsegment.symm.trans hempty))
    obtain ⟨p, hhead, -, hclips⟩ := hreads.narrow (by decide +kernel) jumps.taper jumps.full
      (by decide +kernel)
    obtain rfl : (⟨0, 1, 1, 1⟩ : Piece Rat) = p :=
      Option.some.inj (Eq.trans (by decide +kernel) hhead)
    exact (hclips rfl (by decide +kernel)).mpr (by decide +kernel)

/-- Where the two differ: within a segment that is too narrow to count the rate is that of the
segment behind it; a piece that is too narrow to count and falls to nothing counts as nothing before
its end; and of three points at which a battery is empty the last one counts here, but the second
one for the curve. -/
theorem rateAt_ne_min :
    let narrow : Curve Rat := ⟨"narrow", ⟨0, 1⟩, ⟨1 / 2 ^ 41, 3⟩, ⟨1 / 2, 3⟩, ⟨1, 1⟩⟩
    let steep : Curve Rat := ⟨"steep", ⟨0, 1⟩, ⟨1 / 2, 1⟩, ⟨1 / 2 + 1 / 2 ^ 39, 0⟩, ⟨1, 1⟩⟩
    let jumps : Curve Rat := ⟨"jumps", ⟨0, 1⟩, ⟨0, 2⟩, ⟨0, 3⟩, ⟨1, 1⟩⟩
    (narrow.fault? = none ∧ (make narrow 1 10).rateAt (1 / 2 ^ 42) = 3 ∧
        min (narrow.rateAt (1 / 2 ^ 42)) (10 / 1) = 2) ∧
      (steep.fault? = none ∧ (make steep 60 30).rateAt (1 / 2 + 3 / 2 ^ 41) = 0 ∧
        min (steep.rateAt (1 / 2 + 3 / 2 ^ 41)) (30 / 60) = 1 / 4) ∧
      jumps.fault? = none ∧ (make jumps 1 10).rateAt 0 = 3 ∧
        min (jumps.rateAt 0) (10 / 1) = 2 := by
  decide +kernel

end LimitedCurve

end DemandTransport
