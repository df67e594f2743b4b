import Bpmn.Command.Arguments

namespace Bpmn.Command

/-- A working folder with one file. -/
def folder (text : String) : World where
  entries := [("d", .file text)]
  environment := []
  modules := []
  attributes _ := []
  release := .keeping

namespace Path

theorem split_d : split "d" = ["d"] := by
  rw [split, String.splitOn, if_neg (by decide), String.splitOnAux, if_neg (by decide +kernel),
    if_neg (by decide +kernel), String.splitOnAux, if_pos (by decide +kernel)]
  decide +kernel

theorem start_d : start "d" = ⟨false, []⟩ := by decide +kernel

theorem ofString_d : ofString "d" = ⟨false, ["d"]⟩ := by
  rw [ofString, start_d, split_d]
  decide +kernel

end Path

variable (text : String)

theorem childAt_folder : (folder text).childAt ⟨false, ["d"]⟩ = .ok (.file text) := by
  have hentry : (folder text).entryAt ⟨false, ["d"]⟩ = some (.file text) := by
    simp [World.entryAt, folder, Path.ofString_d, Path.isBase, Path.up]
  have hname : ¬ Path.nameLimit < "d".utf8ByteSize := by decide +kernel
  simp [World.childAt, hentry, hname]

theorem look_folder : (folder text).look "d" = .ok (.file text) := by
  have hpart : (Path.staysPut "d" || "d" == Path.up) = false := by decide +kernel
  have hstep : Path.step ⟨false, []⟩ "d" = ⟨false, ["d"]⟩ := by decide +kernel
  have hfits : "d".isEmpty = false ∧ Path.fits "d" = true := by decide +kernel
  rw [World.look, Path.start_d, Path.split_d, World.follow, hstep, hpart, childAt_folder]
  simp [hfits, World.follow, Except.map]

theorem lookAt_folder : lookAt (folder text) "d" = .ok (.ok (.file text)) := by
  rw [lookAt, if_neg (by decide +kernel), look_folder]

/-- The file may be written over. -/
theorem target_folder : (folder text).target "d" = .ok ⟨false, ["d"]⟩ := by
  have hfits : Path.fits (Path.toString ⟨false, ["d"]⟩) = true := by decide +kernel
  rw [World.target, Path.ofString_d, Path.start_d]
  simp [hfits, World.follow, Path.child, childAt_folder, Path.up]

end Bpmn.Command
