import Mathlib
import ContainerUsage.Proofs.Payload.Schemas

/-!
# Opening what was put into an envelope

Stats that were put into an envelope are read from it unchanged, and a type name says the same with
and without the host in front of it. So an envelope tells its stats apart from all others, and stats
that were read from any body are read again from an envelope of their own.

* `Envelope.content_legacy` and `Envelope.content_unified` are the round trips, from those of the
  schemas.
* `Envelope.length_body_le` says that stats that were read take no more room in an envelope of their
  own than where they came from.
* `Envelope.content_roundTrip` puts these together with the names that stand for nothing.

The body of an envelope has a length of 64 bits (`Envelope.Fits`), as everything in memory has.
-/

namespace ContainerUsage.Payload

open Wire

/-! ## Type names -/

/-- The type names that stand for a payload. -/
def knownTypeUrls : List String :=
  [legacyTypeUrl, typeHost ++ legacyTypeUrl, unifiedTypeUrl, typeHost ++ unifiedTypeUrl]

/-- One host is taken off a type name. -/
theorem bareTypeUrl_append (name : String) : bareTypeUrl (typeHost ++ name) = name := by
  have hprefix : typeHost.toList.isPrefixOf? (typeHost ++ name).toList = some name.toList := by
    rw [List.isPrefixOf?_eq_some_iff_append_eq, String.toList_append]
  rw [bareTypeUrl, hprefix]
  exact String.ofList_toList

/-- Type names with the same bare name are this name and the one with a host in front of it. -/
theorem bareTypeUrl_eq_iff {name : String} (hbare : bareTypeUrl name = name) {typeUrl : String} :
    bareTypeUrl typeUrl = name ↔ typeUrl = name ∨ typeUrl = typeHost ++ name := by
  constructor
  · rintro rfl
    unfold bareTypeUrl
    split
    · next rest hprefix =>
      right
      rw [List.isPrefixOf?_eq_some_iff_append_eq] at hprefix
      apply String.toList_injective
      rw [String.toList_append, String.toList_ofList, hprefix]
    · exact .inl rfl
  · rintro (rfl | rfl)
    · exact hbare
    · exact bareTypeUrl_append name

/-- The legacy stats have two names: that of their type, alone and behind the host. -/
theorem bareTypeUrl_eq_legacy_iff {typeUrl : String} : bareTypeUrl typeUrl = legacyTypeUrl ↔
    typeUrl = legacyTypeUrl ∨ typeUrl = typeHost ++ legacyTypeUrl :=
  bareTypeUrl_eq_iff (by decide)

/-- The unified stats have two names, too. -/
theorem bareTypeUrl_eq_unified_iff {typeUrl : String} : bareTypeUrl typeUrl = unifiedTypeUrl ↔
    typeUrl = unifiedTypeUrl ∨ typeUrl = typeHost ++ unifiedTypeUrl :=
  bareTypeUrl_eq_iff (by decide)

/-! ## The round trip -/

namespace Envelope

/-- The length of a body is a number of 64 bits. -/
def Fits (envelope : Envelope) : Prop := envelope.body.length < UInt64.size

/-- Legacy stats are never too long, whatever their numbers are. -/
theorem fits_ofLegacy (stats : Legacy.Stats) : (ofLegacy stats).Fits :=
  Nat.lt_of_le_of_lt (Legacy.Stats.length_write_le stats) (by decide)

/-- What an envelope holds depends on the bare name of its type. -/
theorem content_eq_ok_iff {envelope : Envelope} {content : Content} :
    envelope.content = .ok content ↔
      (bareTypeUrl envelope.typeUrl = legacyTypeUrl ∧
        ∃ stats, Legacy.Stats.schema.read envelope.body = .ok stats ∧ content = .legacy stats) ∨
      (bareTypeUrl envelope.typeUrl = unifiedTypeUrl ∧
        ∃ stats, Unified.Stats.schema.read envelope.body = .ok stats ∧
          content = .unified stats) := by
  have hne : legacyTypeUrl ≠ unifiedTypeUrl := by decide
  unfold Envelope.content
  dsimp only
  by_cases hlegacy : bareTypeUrl envelope.typeUrl = legacyTypeUrl
  · rw [if_pos hlegacy]
    cases Legacy.Stats.schema.read envelope.body <;> simp [hlegacy, hne, eq_comm]
  · rw [if_neg hlegacy]
    by_cases hunified : bareTypeUrl envelope.typeUrl = unifiedTypeUrl
    · rw [if_pos hunified]
      cases Unified.Stats.schema.read envelope.body <;> simp [hunified, Ne.symm hne, eq_comm]
    · rw [if_neg hunified]
      simp [hlegacy, hunified]

/-- A name that stands for no payload is refused, whatever the body is. -/
theorem content_unknown {envelope : Envelope} (h : envelope.typeUrl ∉ knownTypeUrls) :
    envelope.content = .error (.unknownType envelope.typeUrl) := by
  have hlegacy : bareTypeUrl envelope.typeUrl ≠ legacyTypeUrl := by
    rw [Ne, bareTypeUrl_eq_legacy_iff]
    intro heq
    exact h (by rcases heq with heq | heq <;> simp [knownTypeUrls, heq])
  have hunified : bareTypeUrl envelope.typeUrl ≠ unifiedTypeUrl := by
    rw [Ne, bareTypeUrl_eq_unified_iff]
    intro heq
    exact h (by rcases heq with heq | heq <;> simp [knownTypeUrls, heq])
  unfold Envelope.content
  dsimp only
  rw [if_neg hlegacy, if_neg hunified]

/-- Legacy stats are read from their body, under either name. -/
theorem content_legacy (stats : Legacy.Stats) {typeUrl : String}
    (h : typeUrl ∈ [legacyTypeUrl, typeHost ++ legacyTypeUrl]) :
    content ⟨typeUrl, (ofLegacy stats).body⟩ = .ok (.legacy stats) := by
  have hbare : bareTypeUrl typeUrl = legacyTypeUrl := bareTypeUrl_eq_legacy_iff.2 (by simpa using h)
  have hread := Schema.Lawful.read_write (Legacy.Stats.lawful 98) (fits_ofLegacy stats)
  exact content_eq_ok_iff.2 (.inl ⟨hbare, stats, hread, rfl⟩)

/-- Unified stats are read from their body, under either name. -/
theorem content_unified {stats : Unified.Stats} (hfits : (ofUnified stats).Fits) {typeUrl : String}
    (h : typeUrl ∈ [unifiedTypeUrl, typeHost ++ unifiedTypeUrl]) :
    content ⟨typeUrl, (ofUnified stats).body⟩ = .ok (.unified stats) := by
  have hbare : bareTypeUrl typeUrl = unifiedTypeUrl :=
    bareTypeUrl_eq_unified_iff.2 (by simpa using h)
  have hread := Schema.Lawful.read_write (Unified.Stats.lawful 98) hfits
  exact content_eq_ok_iff.2 (.inr ⟨hbare, stats, hread, rfl⟩)

/-- Stats that were read take no more room in an envelope of their own than where they came from. -/
theorem length_body_le {envelope : Envelope} {content : Content} (hfits : envelope.Fits)
    (h : envelope.content = .ok content) :
    content.envelope.body.length ≤ envelope.body.length := by
  rcases content_eq_ok_iff.1 h with ⟨-, stats, hread, rfl⟩ | ⟨-, stats, hread, rfl⟩
  · exact (Legacy.Stats.lawful 0).length_write_of_read hread hfits
  · exact (Unified.Stats.lawful 0).length_write_of_read hread hfits

/-- **Opening an envelope undoes putting stats into it**, for all stats and under both names of
their type; and a name that is none of the four is refused, whatever the body is. So an envelope
tells its stats apart from all others of their kind, and stats that were read from any body are read
again from an envelope of their own. -/
theorem content_roundTrip :
    (∀ stats : Unified.Stats, (ofUnified stats).Fits →
        ∀ typeUrl ∈ [unifiedTypeUrl, typeHost ++ unifiedTypeUrl],
          content ⟨typeUrl, (ofUnified stats).body⟩ = .ok (.unified stats)) ∧
      (∀ stats : Legacy.Stats, ∀ typeUrl ∈ [legacyTypeUrl, typeHost ++ legacyTypeUrl],
          content ⟨typeUrl, (ofLegacy stats).body⟩ = .ok (.legacy stats)) ∧
      (∀ envelope : Envelope, envelope.typeUrl ∉ knownTypeUrls →
        envelope.content = .error (.unknownType envelope.typeUrl)) ∧
      Set.InjOn ofUnified { stats | (ofUnified stats).Fits } ∧
      Function.Injective ofLegacy ∧
      ∀ (envelope : Envelope) (content : Content), envelope.Fits → envelope.content = .ok content →
        content.envelope.content = .ok content := by
  refine ⟨fun stats hfits typeUrl => content_unified hfits,
    fun stats typeUrl => content_legacy stats, fun envelope => content_unknown, ?_, ?_, ?_⟩
  · intro a ha b hb heq
    have hread := content_unified ha List.mem_cons_self
    rw [heq, content_unified hb List.mem_cons_self] at hread
    exact (Content.unified.inj (Except.ok.inj hread)).symm
  · intro a b heq
    have hread := content_legacy a List.mem_cons_self
    rw [heq, content_legacy b List.mem_cons_self] at hread
    exact (Content.legacy.inj (Except.ok.inj hread)).symm
  · intro envelope content hfits h
    have hagain := Nat.lt_of_le_of_lt (length_body_le hfits h) hfits
    cases content with
    | legacy stats => exact content_legacy stats List.mem_cons_self
    | unified stats => exact content_unified hagain List.mem_cons_self

/-- Groups with the greatest number, without any number and without any item, and texts of other
scripts and of no letters. -/
def wideStats : Unified.Stats where
  pids := some ⟨18446744073709551615, 0⟩
  cpu := some {}
  memory := some { anon := 128, swapLimit := 1 }
  io := some ⟨[{ major := 8 }, {}]⟩
  hugetlb := [⟨1, 2, "2Mµ"⟩, ⟨0, 0, ""⟩]

/-- The second body has an unknown field, and tells the number of processes and its limit apart. -/
theorem content_roundTrip_wide :
    (Envelope.mk (typeHost ++ unifiedTypeUrl) (ofUnified wideStats).body).content =
        .ok (.unified wideStats) ∧
      (ofUnified { pids := some ⟨5, 9⟩ }).content = .ok (.unified { pids := some ⟨5, 9⟩ }) ∧
      (Envelope.mk (typeHost ++ typeHost ++ unifiedTypeUrl) []).content =
        .error (.unknownType (typeHost ++ typeHost ++ unifiedTypeUrl)) := by
  have hwide : (ofUnified wideStats).Fits := by
    unfold Fits
    cbv
  have hread : (Envelope.mk unifiedTypeUrl [10, 3, 8, 133, 0, 120, 1, 10, 2, 16, 9]).content =
      .ok (.unified { pids := some ⟨5, 9⟩ }) := by
    decide +kernel
  obtain ⟨hunified, -, hunknown, -, -, hagain⟩ := content_roundTrip
  refine ⟨hunified wideStats hwide _ (by simp), ?_, ?_⟩
  · exact hagain _ _ (by unfold Fits; decide) hread
  · exact hunknown _ (by decide)

end Envelope

end ContainerUsage.Payload
