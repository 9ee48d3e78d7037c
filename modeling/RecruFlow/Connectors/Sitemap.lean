import RecruFlow.Python.Value

/-!
# The persisted cursor of the sitemap connectors
-/

namespace RecruFlow.Connectors

/-- `int(config.get("sitemap_cursor", 0) or 0)` -/
def storedSitemapCursor (parse : String → Option Int) (config : Dict) : Except PyError Int :=
  let stored := config.getD "sitemap_cursor" (.int 0)
  (if stored.truthy then stored else .int 0).toInt parse

/-- Where a run resumes: the stored cursor, or 0 when it is out of range. -/
def resolveSitemapCursor (parse : String → Option Int) (config : Dict) (urlCount : Nat) :
    Except PyError Nat := do
  let cursor ← storedSitemapCursor parse config
  if 0 ≤ cursor ∧ cursor < urlCount then pure cursor.toNat else pure 0

/-- Past the end of the sitemap (`none`) the next run starts a fresh pass. -/
def nextSitemapCursor (finalCursor : Option Nat) : Nat :=
  finalCursor.getD 0

/-- A run starts among the urls. -/
theorem resolveSitemapCursor_lt {parse : String → Option Int} {config : Dict}
    {urlCount cursor : Nat} (hurls : 0 < urlCount)
    (h : resolveSitemapCursor parse config urlCount = .ok cursor) : cursor < urlCount := by
  obtain ⟨stored, _, h⟩ := bind_ok h
  split at h
  · next hrange =>
    obtain rfl := Except.ok.inj h
    omega
  · obtain rfl := Except.ok.inj h
    exact hurls

/-- A stored cursor that is in range is where the next run resumes. -/
theorem resolveSitemapCursor_of_get {parse : String → Option Int} {config : Dict}
    {urlCount cursor : Nat} (hget : config.get "sitemap_cursor" = some (.int cursor))
    (h : cursor < urlCount) : resolveSitemapCursor parse config urlCount = .ok cursor := by
  have htruthy : (if (PyValue.int cursor).truthy then PyValue.int cursor else .int 0) =
      .int cursor := by
    split
    · rfl
    · next hz =>
      have hzero : (cursor : Int) = 0 := by simpa [PyValue.truthy] using hz
      rw [hzero]
  have hstored : config.getD "sitemap_cursor" (.int 0) = .int cursor := by
    rw [Dict.getD, hget, Option.getD_some]
  simp [resolveSitemapCursor, storedSitemapCursor, hstored, htruthy, PyValue.toInt, pure, Except.pure, bind,
    Except.bind, h]

theorem resolveSitemapCursor_of_absent {parse : String → Option Int} {config : Dict}
    {urlCount : Nat} (hget : config.get "sitemap_cursor" = none) :
    resolveSitemapCursor parse config urlCount = .ok 0 := by
  have hstored : config.getD "sitemap_cursor" (.int 0) = .int 0 := by
    rw [Dict.getD, hget, Option.getD_none]
  simp [resolveSitemapCursor, storedSitemapCursor, hstored, PyValue.toInt, pure, Except.pure, bind, Except.bind]

end RecruFlow.Connectors
