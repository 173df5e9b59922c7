import SessionArchive.Proofs.Store.Agreement
import SessionArchive.Proofs.Store.Removal

/-!
# Reading the sessions that remain

Where sessions are removed and the others keep their messages, what remains is read as before: a
load answers the same (`Sound.loadSession_of_has`), and a listing shows the same summaries in the
same order, less those of the removed sessions (`Sound.summaries_of_has`).
-/

set_option autoImplicit false

namespace SessionArchive.Store.Database

variable {db after : Database} {row : SessionRow}

/-! ## One session -/

section Has

variable (h : db.Sound) (hafter : after.Sound) (hlater : db.Later after)
  (hrow : row ∈ db.sessions.rows) (hhas : after.Has db row)

include h hafter hlater hrow hhas

theorem Sound.loadSession_of_has : after.loadSession row.id = db.loadSession row.id := by
  obtain ⟨scope, hscope⟩ := h.exists_scopeOf? hrow
  obtain ⟨messages, htranscript⟩ := h.transcripts row hrow
  have hscopeAfter : after.scopeOf? row.branchId = some scope :=
    (h.scopeOf?_of_later hafter hlater hrow hhas.row).trans hscope
  have htranscriptAfter : Transcript row.id 0 (after.messagesOf row.id) messages := by
    rw [hhas.messages]
    exact htranscript
  rw [hafter.loadSession_eq hhas.row hscopeAfter htranscriptAfter,
    h.loadSession_eq hrow hscope htranscript]

theorem Sound.summary?_of_has : after.summary? row = db.summary? row := by
  rw [summary?, h.scopeOf?_of_later hafter hlater hrow hhas.row, hhas.messages, summary?]

end Has

/-! ## All sessions -/

/-- A listing shows of the sessions that remain what it showed of them before. -/
theorem Sound.summaries_of_has (h : db.Sound) (hafter : after.Sound) (hlater : db.Later after)
    {q : SessionRow → Bool} (hrows : after.sessions.rows = db.sessions.rows.filter q)
    (hhas : ∀ row ∈ db.sessions.rows, q row = true → after.Has db row)
    {p : SessionSummary → Bool}
    (hp : ∀ row ∈ db.sessions.rows, ∀ s, db.summary? row = some s → p s = q row) :
    after.summaries = db.summaries.filter p := by
  rw [summaries, hrows, byRecency_filter, summaries, List.filterMap_filter, List.filter_filterMap]
  apply List.filterMap_congr
  intro row hmem
  have hrow := List.mem_mergeSort.mp hmem
  obtain ⟨s, hs⟩ := Option.isSome_iff_exists.mp (h.isSome_summary? hrow)
  rw [hs, Option.filter, hp row hrow s hs]
  cases hq : q row with
  | false => rfl
  | true =>
    rw [h.summary?_of_has hafter hlater hrow (hhas row hrow hq), hs]

end SessionArchive.Store.Database
