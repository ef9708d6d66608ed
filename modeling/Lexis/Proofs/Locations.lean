import Lexis.Proofs.Readings

/-!
# Locations are exact

Every token and every diagnostic of a scan stands behind a part of the source, and its location is the
counted place behind that part: `scan_locations_exact`.
-/

namespace Lexis

theorem Readings.location_exact {config : Config} {file : String} {source : List Char}
    {tokens : List Token} {diagnostics : List Diagnostic}
    (h : Readings config file [] (Piece.cut source) tokens diagnostics) :
    (∀ t ∈ tokens ++ [eofBehind file source], t.location.Exact source file) ∧
      ∀ d ∈ diagnostics, d.location.Exact source file := by
  refine ⟨List.forall_mem_append.2 ⟨fun t ht => ?_, List.forall_mem_singleton.2 ?_⟩, fun d hd => ?_⟩
  · obtain ⟨front, piece, behind, rfl, -, gives⟩ := h.of_mem_token_cut ht
    rw [gives.token_location.1]
    exact Location.exact_behind file front _
  · have exact := Location.exact_behind file source []
    rwa [List.append_nil] at exact
  · obtain ⟨front, piece, behind, rfl, -, gives⟩ := h.of_mem_diagnostic_cut hd
    rw [gives.diagnostic_location]
    exact Location.exact_behind file front _

/-- **Every location of a scan is exact**: that of each token, the end included, and that of each
diagnostic. The end is at the offset behind the whole source. -/
theorem scan_locations_exact (config : Config) (h : config.bits ≤ Limit.maxBits)
    (file : Option String) (source : String) :
    ∃ tokens eof diagnostics, scan source file config = .ok ⟨tokens ++ [eof], diagnostics⟩ ∧
      (∀ t ∈ tokens ++ [eof], t.location.Exact source.toList (config.fileName file)) ∧
      (∀ d ∈ diagnostics, d.location.Exact source.toList (config.fileName file)) ∧
      eof.kind = .eof ∧ eof.location.offset = (source.toList.length : Int) := by
  obtain ⟨tokens, diagnostics, scanned, readings⟩ := scan_readings h file source
  obtain ⟨exact, exactFaults⟩ := readings.location_exact
  exact ⟨tokens, _, diagnostics, scanned, exact, exactFaults, rfl, rfl⟩

theorem scan_locations_exact_standard :
    Config.standard.bits ≤ Limit.maxBits ∧
      ∃ tokens eof diagnostics,
        scan "x = 'a\nb' @\n\t99999999999 // c" none Config.standard =
          .ok ⟨tokens ++ [eof], diagnostics⟩ ∧
        (∀ t ∈ tokens ++ [eof],
          t.location.Exact "x = 'a\nb' @\n\t99999999999 // c".toList "<unknown>") ∧
        (∀ d ∈ diagnostics,
          d.location.Exact "x = 'a\nb' @\n\t99999999999 // c".toList "<unknown>") ∧
        eof.kind = .eof ∧
        eof.location.offset = ("x = 'a\nb' @\n\t99999999999 // c".toList.length : Int) :=
  ⟨by decide, scan_locations_exact Config.standard (by decide) none
    "x = 'a\nb' @\n\t99999999999 // c"⟩

end Lexis
