import PageCache.Proofs.Apache.Headers
import PageCache.Proofs.Nginx.Headers
import PageCache.Rules
import PageCache.Settings

/-! What the header rules of both servers declare, read from the rules that are written. -/
namespace PageCache

theorem HeaderPlan.charset_build_ne_nil (p : Policy) (s : Site) : (build p s).charset ≠ [] := by
  have hcharset : (build p s).charset = if s.charset.isBlank then defaultCharset else s.charset := rfl
  rw [hcharset]
  split_ifs with h
  · decide
  · intro hnone
    rw [hnone] at h
    exact h rfl

end PageCache
