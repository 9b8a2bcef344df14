import Hocuspocus.Lib.Run

/-!
# Logs that keep to a protocol

A protocol is a relation `next`: the entry that may follow in a log, and where
the log then stands. `Traced next s es t` reads a list of entries from `s` to
`t`. A system that keeps a log keeps to the protocol in every run, if from
related states each of its steps writes entries the protocol allows
(`exec_traced`); a step may write none, or several.
-/

namespace Lts

universe u v w x

variable {σ : Type u} {ℓ : Type v} {τ : Type w} {ε : Type x}

/-- The entries lead from one point of the protocol to the other. -/
inductive Traced (next : τ → ε → τ → Prop) : τ → List ε → τ → Prop
  | nil (s : τ) : Traced next s [] s
  | cons {s t u : τ} {e : ε} {es : List ε} (hnext : next s e t) (hrest : Traced next t es u) :
    Traced next s (e :: es) u

variable {next : τ → ε → τ → Prop} {step : σ → ℓ → Option σ}

theorem Traced.single {s t : τ} {e : ε} (h : next s e t) : Traced next s [e] t := .cons h (.nil t)

theorem Traced.append {s t u : τ} {es fs : List ε} (h : Traced next s es t)
    (h' : Traced next t fs u) : Traced next s (es ++ fs) u := by
  induction h with
  | nil s => exact h'
  | cons hnext _ ih => exact .cons hnext (ih h')

/-- What each step writes from related states the protocol allows, so it
allows what a run writes. -/
theorem exec_traced {log : σ → List ε} {R : σ → τ → Prop}
    (hstep : ∀ s l t q, step s l = some t → R s q →
      ∃ es q', log t = log s ++ es ∧ Traced next q es q' ∧ R t q') :
    ∀ {ls : List ℓ} {s t : σ} {q : τ}, exec step s ls = some t → R s q →
      ∃ es q', log t = log s ++ es ∧ Traced next q es q' ∧ R t q' := by
  intro ls
  induction ls with
  | nil =>
    intro s t q h hs
    rw [exec_nil, Option.some.injEq] at h
    subst h
    exact ⟨[], q, (List.append_nil _).symm, .nil q, hs⟩
  | cons l ls ih =>
    intro s t q h hs
    obtain ⟨u, hu, hrest⟩ := exec_cons.mp h
    obtain ⟨es, q₁, hlog, htraced, hs₁⟩ := hstep s l u q hu hs
    obtain ⟨fs, q₂, hlog', htraced', hs₂⟩ := ih hrest hs₁
    exact ⟨es ++ fs, q₂, by rw [hlog', hlog, List.append_assoc], htraced.append htraced', hs₂⟩

end Lts
