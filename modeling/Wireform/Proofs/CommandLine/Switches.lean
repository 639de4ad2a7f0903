import Wireform.Proofs.CommandLine.Spelling

/-! # The switch for lazy runs

A command line that begins with the switch for lazy runs asks for the same as without it, only
lazily (`Wireform.CommandLine.read_lazy_cons`): switches are gathered one by one, and none of them
has a say in what becomes of the others.
-/

namespace Wireform

open Text (Raw)

/-- The same request for a lazy run. -/
def Request.lazily : Request → Request
  | .help => .help
  | .run arguments => .run { arguments with lazy := true }

namespace CommandLine

private theorem Gathered.request_lazy (gathered : Gathered) :
    Gathered.request { gathered with lazy := true } = gathered.request.map Request.lazily := by
  unfold Gathered.request
  cases gathered.inputs with
  | nil => cases gathered.outdir <;> rfl
  | cons input inputs =>
      cases gathered.outdir with
      | none => rfl
      | some outdir =>
          simp only
          split <;> rfl

/-- What was asked for by a switch is asked for whatever else follows. -/
theorem gather_lazy (meanings : List Word) (gathered : Gathered) :
    gather meanings { gathered with lazy := true } =
      (gather meanings gathered).map Request.lazily := by
  fun_induction gather meanings gathered with
  | case1 gathered => exact gathered.request_lazy
  | case2 text rest gathered ih =>
      rw [gather, ← ih]
      congr 1
      unfold Gathered.addOperand
      split <;> simp_all [Gathered.takesInputs]
  | case3 rest gathered ih =>
      rw [gather, ← ih]
      congr 1
      unfold Gathered.addSeparator
      split <;> simp_all [Gathered.takesInputs]
  | case4 text rest gathered ih =>
      rw [gather, ← ih]
      rfl
  | case5 kind value rest gathered takes ih =>
      rw [gather, if_pos takes, ← ih]
      cases kind <;> rfl
  | case6 kind value rest gathered takes => rw [gather, if_neg takes]; rfl
  | case7 => rfl
  | case8 kind value rest gathered _ takes ih =>
      rw [gather, if_pos takes, ← ih]
      · cases kind <;> rfl
      · assumption
  | case9 kind value rest gathered other takes ih =>
      cases kind with
      | help => exact absurd rfl other
      | outdir | config | moduleName => exact absurd rfl takes
      | noPython | matlab | lazy => exact ih
  | case10 kind rest gathered _ _ takes =>
      rw [gather, if_pos takes]
      · rfl
      · assumption
      · assumption
  | case11 kind rest gathered _ _ takes ih =>
      rw [gather, if_neg takes, ← ih]
      · cases kind <;> rfl
      · assumption
      · assumption

/-- **A switch in front makes a command line lazy** and changes nothing else about it. -/
theorem read_lazy_cons (line : List Raw) :
    read (Raw.ofString "--lazy" :: line) = (read line).map Request.lazily := by
  have first : wordOf (Raw.ofString "--lazy") = .ok (.switch .lazy none) := rfl
  unfold read
  rw [words, if_neg (by decide), first]
  cases words line with
  | error fault => rfl
  | ok meanings =>
      have rest : gather (.switch .lazy none :: meanings) {} =
          gather meanings { ({} : Gathered) with lazy := true } := by
        rcases meanings with _ | ⟨word, meanings⟩
        · rfl
        · cases word <;> rfl
      exact rest.trans (gather_lazy meanings {})

end CommandLine

end Wireform
