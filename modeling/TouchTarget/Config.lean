import TouchTarget.Pixels

/-!
# What is checked

A configuration lists the viewports and the targets. Each target is checked at each viewport
against the minimum size there.
-/

namespace TouchTarget

structure Viewport where
  name : String
  width : Pixels
  /-- The least width and height of a target. -/
  minSize : Pixels
deriving DecidableEq, Repr, Inhabited

structure Target where
  selector : String
  name : String
deriving DecidableEq, Repr, Inhabited

structure Config where
  viewports : List Viewport
  targets : List Target
deriving DecidableEq, Repr, Inhabited

namespace Config

def builtinViewports : List Viewport :=
  [⟨"iPhone SE", 320, 48⟩, ⟨"Mobile Portrait", 480, 48⟩, ⟨"Tablet Portrait", 768, 44⟩]

def builtinTargets : List Target :=
  [⟨"#audio-controls button", "Audio Control Buttons"⟩,
    ⟨".volume-slider input[type=\"range\"]", "Volume Sliders"⟩,
    ⟨".difficulty-btn", "Difficulty Buttons"⟩,
    ⟨"#start-button", "Start Button"⟩,
    ⟨"#help-button", "Help Button"⟩,
    ⟨"#pause-button", "Pause Button"⟩,
    ⟨"#help-close", "Help Close Button"⟩,
    ⟨"#pause-overlay button", "Pause Overlay Buttons"⟩,
    ⟨"#resume-button", "Resume Button"⟩,
    ⟨"#restart-button", "Restart Button"⟩]

/-- The configuration that is used where none is given. -/
def builtin : Config := ⟨builtinViewports, builtinTargets⟩

end Config

end TouchTarget
