import Retrofit.Proofs.Space.Acceptance

/-!
# Whole numbers as counts of steps

What the search does with a scenario that has legal values but for one whole number
(`SiteSpace.stepped_positions`). It is encoded exactly if the number is reached from the least one by
a count of steps, and the gene has that count. If the number is legal, the count is exact and the
number is decoded again. The only other number that is encoded is the one that follows the last of
`2 ^ 53` steps: as a double its count is the one before, and so it is decoded to the last legal
number (`SiteSpace.overrun_meter_encoded`).
-/

namespace Retrofit

open Number

/-- What is left and what is counted when a word is divided are words. -/
lemma word_tmod_tdiv {a b : Int} (hb : 0 < b) (ha : Word a) :
    Word (a.tmod b) ∧ Word (a.tdiv b) := by
  have hshrink : ∀ n : Int, 0 ≤ n →
      0 ≤ n.tmod b ∧ n.tmod b ≤ n ∧ 0 ≤ n.tdiv b ∧ n.tdiv b ≤ n := by
    intro n hn
    have hrest := Int.natAbs_tmod n b
    have hle := Nat.mod_le n.natAbs b.natAbs
    have hnonneg := Int.tmod_nonneg b hn
    exact ⟨hnonneg, by omega, Int.tdiv_nonneg hn (by omega), Int.tdiv_le_self b hn⟩
  unfold Word at *
  rcases Int.le_total 0 a with hpos | hneg
  · have := hshrink a hpos
    omega
  · have hmirror := hshrink (-a) (by omega)
    rw [Int.neg_tmod, Int.neg_tdiv] at hmirror
    omega

/-! ## Ranges with steps -/

namespace AttributeRange

variable {asset attr : String} {min max step v : Int}

/-- The whole numbers that are read are counted in steps, up to the greatest legal one or one beyond
it. -/
lemma readable_stepped_iff : (stepped min max step).Readable (.int v) ↔
    ∃ k : Nat, v = min + k * step ∧ (v ≤ max ∨ (max - min) / step = 2 ^ 53 ∧ k = 2 ^ 53 + 1) := by
  constructor
  · intro h
    cases h with
    | legal h =>
      cases h with
      | step k hk => exact ⟨k, rfl, .inl hk⟩
    | next htop => exact ⟨2 ^ 53 + 1, rfl, .inr ⟨htop, rfl⟩⟩
  · rintro ⟨k, rfl, hle | ⟨htop, rfl⟩⟩
    · exact .legal (.step k hle)
    · exact .next htop

/-- What is left of a range with steps that varies. -/
lemma eq_stepped_of_resolve {l : Locus}
    (h : (stepped min max step).resolve asset attr = .ok (.searched l)) :
    l = .stepped asset attr min step ((max - min) / step) ∧
      max - min ≤ 9223372036854775807 ∧ min + (max - min) / step * step ≤ max ∧
      max < min + ((max - min) / step + 1) * step := by
  cases resolves_of_resolve h with
  | stepped _ _ _ last hstep hpos hlast hspan hlow hhigh =>
    rw [Locus.ediv_eq_last hstep hlow hhigh]
    exact ⟨rfl, hspan, hlow, hhigh⟩

end AttributeRange

/-- A count that the range has means its number of steps. -/
lemma Locus.value?_ofInt {asset attr : String} {min step last : Int} {k : Nat}
    (hl : (stepped asset attr min step last).Exact) (hk : k ≤ last) :
    (stepped asset attr min step last).value? (ofInt k) = some (.int (min + k * step)) := by
  obtain ⟨-, hpos, hlast, -⟩ := hl
  unfold value?
  dsimp only
  rw [gene_stepped _ _ _ _ hpos, (Gene.clip_ofInt (by omega) (by omega)).2]

/-! ## Scenarios with one whole number -/

/-- The scenario is one of the site, and its values are legal but for one attribute. -/
structure Site.LegalBut (site : Site) (asset attr : String) (s : Scenario) : Prop where
  siteId : s.siteId = site.siteId
  others : ∀ asset' range config, site.range.get? asset' = some range →
    s.assets.get? asset' = some config → ∀ attr' one, range.attributes.get? attr' = some one →
      ¬ (asset' = asset ∧ attr' = attr) → ∃ v, config.get? attr' = some v ∧ one.Legal v

namespace SiteSpace

variable {site : Site} {space : SiteSpace} {asset attr : String} {range : AssetRange}
  {one : AttributeRange} {s : Scenario} {config : AssetConfig} {c : Chromosome}

/-- If all other values are legal, a scenario is read if the one is. -/
lemma readable_iff_of_legalBut (hs : site.LegalBut asset attr s)
    (hrange : site.range.get? asset = some range) (hattr : range.attributes.get? attr = some one)
    (hvaries : one.Varies) (hconfig : s.assets.get? asset = some config) {v : AttributeValue}
    (hv : config.get? attr = some v) : site.Readable s ↔ one.Readable v := by
  constructor
  · intro h
    obtain ⟨w, hw, hread⟩ := h asset range config hrange hconfig attr one hattr hvaries
    cases hv.symm.trans hw
    exact hread
  · intro hread asset' range' config' hrange' hconfig' attr' one' hattr' _
    by_cases heq : asset' = asset ∧ attr' = attr
    · obtain ⟨rfl, rfl⟩ := heq
      cases hrange.symm.trans hrange'
      cases hattr.symm.trans hattr'
      cases hconfig.symm.trans hconfig'
      exact ⟨v, hv, hread⟩
    · obtain ⟨w, hw, hlegal⟩ := hs.others asset' range' config' hrange' hconfig' attr' one' hattr' heq
      exact ⟨w, hw, .legal hlegal⟩

lemma exists_mem_zip_of_encode (hc : space.encode s = some c) {l : Locus} (hl : l ∈ space.loci) :
    ∃ x, (l, x) ∈ space.loci.zip c ∧ l.position s.assets = some x := by
  have hpositions := positions_of_encode hc
  rw [← List.map_fst_zip hpositions.length_eq.le] at hl
  obtain ⟨e, he, rfl⟩ := List.mem_map.mp hl
  exact ⟨e.2, he, List.forall₂_zip hpositions he⟩

/-- An asset of an encoded scenario is decoded again, with the value of every locus. -/
lemma value?_of_encode (h : ofSite site = .ok space) (hfits : site.Fits)
    (hc : space.encode s = some c) (hrange : site.range.get? asset = some range)
    (hattr : range.attributes.get? attr = some one) (hconfig : s.assets.get? asset = some config)
    {l : Locus} {x : Float} (hresolve : one.resolve asset attr = .ok (.searched l))
    (hmem : (l, x) ∈ space.loci.zip c) :
    ((space.decode c).assets.get? asset).bind (·.get? attr) = l.value? x := by
  have hpositions := positions_of_encode hc
  have hsettles := (settles_assets h hfits hpositions.length_eq.symm
    (isNumber_of_encode h hfits hc) asset).1 range hrange
  change ((space.assets c).get? asset).bind _ = _
  generalize (space.assets c).get? asset = found at hsettles
  cases hsettles with
  | dropped hoptional hmem' hlow =>
    -- the scenario has the asset, so its presence has the position one
    have hposition := List.forall₂_zip hpositions hmem'
    unfold Locus.position at hposition
    dsimp only [Locus.asset] at hposition
    rw [hconfig] at hposition
    cases hposition
    exact absurd hlow (by decide +kernel : ¬ (Gene.integer 0 1).clip 1.0 < 0.5)
  | kept _ hattrs =>
    have hset := hattrs attr
    rw [hattr] at hset
    obtain ⟨v, hv, hsettled⟩ := Dict.exists_of_rel_some hset
    have hloci := (laidOut_of_ofSite h).nodup_loci site.range.sorted
    exact hv.trans (value?_of_settles hloci hresolve hmem hsettled).symm

/-- What a chromosome has of the whole number `v` that is `k` steps from the least one of its range,
where it encodes a scenario with that number. -/
structure Counted (space : SiteSpace) (asset attr : String) (min max step v : Int)
    (c : Chromosome) (k : Nat) : Prop where
  value_eq : v = min + k * step
  /-- The gene of the number has this count, and nothing else. -/
  mem_zip_iff : ∀ x, (.stepped asset attr min step ((max - min) / step), x) ∈ space.loci.zip c ↔
    x = ofInt k
  /-- A legal number has an exact count and is decoded again. -/
  legal : v ≤ max → units (ofInt k) = k * Number.one ∧
    ((space.decode c).assets.get? asset).bind (·.get? attr) = some (.int v)
  /-- Another number follows the last one that is counted exactly, and is taken for that. -/
  beyond : max < v → (max - min) / step = 2 ^ 53 ∧ k = 2 ^ 53 + 1 ∧
    ((space.decode c).assets.get? asset).bind (·.get? attr) = some (.int (min + 2 ^ 53 * step))
  /-- No index, count or product leaves its range when the chromosome is decoded. -/
  safe : ∀ e ∈ space.loci.zip c, e.1.Safe e.2

variable {min max step v : Int}

lemma counted_of_encode (h : ofSite site = .ok space) (hfits : site.Fits)
    (hrange : site.range.get? asset = some range)
    (hattr : range.attributes.get? attr = some (.stepped min max step))
    (hvaries : min + step ≤ max) (hconfig : s.assets.get? asset = some config)
    (hv : config.get? attr = some (.int v)) (hc : space.encode s = some c) :
    ∃ k, space.Counted asset attr min max step v c k := by
  obtain ⟨l, hl, hresolve⟩ := exists_locus h (Dict.get?_eq_some_iff.mp hrange)
    (Dict.get?_eq_some_iff.mp hattr) hvaries
  have hexact := exact_of_ofSite h hfits
  obtain ⟨x, hmem, hposition⟩ := exists_mem_zip_of_encode hc hl
  have hdecoded := value?_of_encode h hfits hc hrange hattr hconfig hresolve hmem
  have hlocus := hexact l hl
  obtain ⟨rfl, -, hlow, hhigh⟩ := AttributeRange.eq_stepped_of_resolve hresolve
  unfold Locus.position at hposition
  dsimp only [Locus.asset] at hposition
  rw [hconfig] at hposition
  obtain ⟨k, rfl, hcount, rfl⟩ := (Locus.positionIn_stepped_iff hlocus hv).mp hposition
  generalize hlast : (max - min) / step = last at *
  have hreach := @Locus.le_last_iff min max step last hlocus.1 hlow hhigh k
  have hloci := (laidOut_of_ofSite h).nodup_loci site.range.sorted
  refine ⟨k, rfl, fun y => ?_, fun hle => ?_, fun hlt => ?_, fun e he => ?_⟩
  · rw [hlast]
    exact ⟨fun hy => eq_of_mem_zip_of_nodup hloci hy hmem, fun hy => hy ▸ hmem⟩
  · have hk := hreach.mpr hle
    have htop := hlocus.2.2.1
    exact ⟨units_ofInt (by omega), hdecoded.trans (Locus.value?_ofInt hlocus hk)⟩
  · obtain hle | ⟨htop, hk⟩ := hcount
    · exact absurd (hreach.mp hle) (Int.not_le.mpr hlt)
    · obtain rfl : k = 2 ^ 53 + 1 := hk
      refine ⟨hlast.trans htop, rfl, hdecoded.trans ?_⟩
      exact (congrArg _ ofInt_next).trans (Locus.value?_ofInt (k := 2 ^ 53) hlocus (by omega))
  · exact (Locus.value?_of_isNumber (hexact e.1 (List.of_mem_zip he).1)
      (isNumber_of_mem_zip (isNumber_of_encode h hfits hc) e he)).1

/-- A scenario with legal values but for one whole number is encoded exactly if that number is legal
as well, or is the one that follows the last of `2 ^ 53` steps. Then the gene of the number has its
count of steps from the least one, and nothing on the way there or back leaves the words. -/
theorem stepped_positions (h : ofSite site = .ok space) (hfits : site.Fits)
    (hrange : site.range.get? asset = some range)
    (hattr : range.attributes.get? attr = some (.stepped min max step))
    (hvaries : min + step ≤ max) (hs : site.LegalBut asset attr s)
    (hconfig : s.assets.get? asset = some config) (hv : config.get? attr = some (.int v)) :
    ((∃ c, space.encode s = some c) ↔ ∃ k : Nat,
        v = min + k * step ∧ (v ≤ max ∨ (max - min) / step = 2 ^ 53 ∧ k = 2 ^ 53 + 1)) ∧
      (∀ c, space.encode s = some c → ∃ k, space.Counted asset attr min max step v c k) ∧
      Word (max - min) ∧
      (Word (v - min) → Word ((v - min).tmod step) ∧ Word ((v - min).tdiv step)) := by
  obtain ⟨l, hl, hresolve⟩ := exists_locus h (Dict.get?_eq_some_iff.mp hrange)
    (Dict.get?_eq_some_iff.mp hattr) hvaries
  have hexact := exact_of_ofSite h hfits l hl
  obtain ⟨rfl, hspan, -, -⟩ := AttributeRange.eq_stepped_of_resolve hresolve
  have hstep : 0 < step := hexact.1
  refine ⟨?_, fun c hc => counted_of_encode h hfits hrange hattr hvaries hconfig hv hc,
    by unfold Word; omega, word_tmod_tdiv hstep⟩
  rw [exists_encode_iff h hfits, readable_iff_of_legalBut hs hrange hattr hvaries hconfig hv,
    AttributeRange.readable_stepped_iff]
  exact and_iff_right hs.siteId

/-- A meter that counts as far as a double does. -/
def meter : AssetRange := ⟨true, Dict.ofList [("count", .stepped 0 (2 ^ 53) 1)]⟩

def meterDepot : Site where
  siteId := "depot"
  bundleId := "depot"
  baseline := .empty
  range := Dict.ofList [("meter", meter)]
  constraints := .none
  capexLimit := none

/-- The depot with a reading of its meter. -/
def metered (count : Int) : Scenario :=
  ⟨"depot", "depot", Dict.ofList [("meter", Dict.ofList [("count", .int count)])]⟩

/-- The depot has no other attribute. -/
lemma legalBut_metered (count : Int) : meterDepot.LegalBut "meter" "count" (metered count) where
  siteId := rfl
  others asset range config hrange _ attr one hattr hother := by
    have hmeter : meterDepot.range.entries = [("meter", meter)] := by decide +kernel
    have hcount : meter.attributes.entries = [("count", .stepped 0 (2 ^ 53) 1)] := by decide +kernel
    have hrange := Dict.get?_eq_some_iff.mp hrange
    rw [hmeter, List.mem_singleton] at hrange
    cases hrange
    have hattr := Dict.get?_eq_some_iff.mp hattr
    rw [hcount, List.mem_singleton] at hattr
    cases hattr
    exact absurd ⟨rfl, rfl⟩ hother

/-- The last reading of the meter is encoded as its count. -/
theorem stepped_positions_meter : meterDepot.Fits ∧
    meterDepot.LegalBut "meter" "count" (metered (2 ^ 53)) ∧
    ∃ space c k, ofSite meterDepot = .ok space ∧ space.encode (metered (2 ^ 53)) = some c ∧
      space.Counted "meter" "count" 0 (2 ^ 53) 1 (2 ^ 53) c k := by
  have hfits : meterDepot.Fits := by decide +kernel
  obtain ⟨space, h⟩ := eq_ok_of_isOk (by decide +kernel : (ofSite meterDepot).isOk)
  have hlegal := legalBut_metered (2 ^ 53)
  obtain ⟨haccepts, hcounted, -⟩ := stepped_positions h hfits
    (by decide +kernel : meterDepot.range.get? "meter" = some meter)
    (by decide +kernel : meter.attributes.get? "count" = some (.stepped 0 (2 ^ 53) 1))
    (by decide +kernel) hlegal
    (by decide +kernel : (metered (2 ^ 53)).assets.get? "meter" =
      some (Dict.ofList [("count", .int (2 ^ 53))]))
    (by decide +kernel : (Dict.ofList [("count", AttributeValue.int (2 ^ 53))]).get? "count" =
      some (.int (2 ^ 53)))
  obtain ⟨c, hc⟩ := haccepts.mpr ⟨2 ^ 53, by decide +kernel, .inl (by decide +kernel)⟩
  obtain ⟨k, hk⟩ := hcounted c hc
  exact ⟨hfits, hlegal, space, c, k, h, hc, hk⟩

/-- One reading beyond the last is not legal, but encoded, and decoded to the last. -/
theorem overrun_meter_encoded : ∃ space c, ofSite meterDepot = .ok space ∧
    space.encode (metered (2 ^ 53 + 1)) = some c ∧ space.decode c = metered (2 ^ 53) ∧
    ¬ ∃ k : Nat, (2 ^ 53 + 1 : Int) = 0 + k * 1 ∧ (2 ^ 53 + 1 : Int) ≤ 2 ^ 53 := by
  obtain ⟨space, h⟩ := eq_ok_of_isOk (by decide +kernel : (ofSite meterDepot).isOk)
  have hencode : (ofSite meterDepot).toOption.bind (fun space =>
      (space.encode (metered (2 ^ 53 + 1))).map space.decode) = some (metered (2 ^ 53)) := by
    decide +kernel
  rw [h] at hencode
  obtain ⟨c, hc, hdecode⟩ := Option.map_eq_some_iff.mp hencode
  exact ⟨space, c, h, hc, hdecode, by omega⟩

end SiteSpace

end Retrofit
