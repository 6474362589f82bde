import PushRelay.Proofs.Settings.Document

/-! Which layer a setting comes from: the file that is chosen or a default, the variable of the
setting over it, and its option over both. A setting has no part in any other, so the order in
which variables apply does not show, and neither does applying them again. -/
namespace PushRelay

/-! ## The environment -/

namespace Setting
variable {env : Environment} {j k : Setting}

def Gives (env : Environment) (k : Setting) (v : k.kind.Value) : Prop :=
  k ∈ overridden ∧ ∃ s, env k.variableName = some s ∧ k.kind.Parses s v

end Setting

/-! ## The file -/

namespace Settings
variable {processors : UInt64} {files : Files} {env : Environment} {explicit : Option String}

def base (processors : UInt64) (files : Files) : Option String → Except SettingsFault Settings
  | none => .ok (default processors)
  | some path => readFile processors files path

end Settings
end PushRelay
