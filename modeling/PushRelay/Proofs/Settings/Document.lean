import PushRelay.Proofs.Settings.Setting

/-! What a settings file says of each setting: the value under its name in its section, or the
default where the file leaves out one of them. -/
namespace PushRelay

open Toml

/-! ## Sections -/

section sections
variable {es : Entries}

theorem CoreKey.get_ofEntries? {d s : CoreSettings} (h : d.ofEntries? es = some s) (k : CoreKey) :
    get? es k.name k.kind.ofNode? (k.get d) = some (k.get s) := by
  simp only [CoreSettings.ofEntries?, Option.bind_eq_bind, Option.bind_eq_some_iff,
    Option.pure_def, Option.some.injEq] at h
  obtain ⟨_, hhost, _, hport, _, hworkers, _, hqueues, _, hnotificationMax, _, hpusherMax, _,
    hshutdownTimeout, _, hallowsEmptyMessage, rfl⟩ := h
  cases k <;> assumption

theorem CallKey.get_ofEntries? {d s : CallSettings} (h : d.ofEntries? es = some s) (k : CallKey) :
    get? es k.name k.kind.ofNode? (k.get d) = some (k.get s) := by
  simp only [CallSettings.ofEntries?, Option.bind_eq_bind, Option.bind_eq_some_iff,
    Option.pure_def, Option.some.injEq] at h
  obtain ⟨_, htimeout, _, hkeepaliveTimeout, _, hkeepaliveConns, _, hretryMax, rfl⟩ := h
  cases k <;> assumption

theorem IosKey.get_ofEntries? {d s : IosSettings} (h : d.ofEntries? es = some s) (k : IosKey) :
    get? es k.name k.kind.ofNode? (k.get d) = some (k.get s) := by
  simp only [IosSettings.ofEntries?, Option.bind_eq_bind, Option.bind_eq_some_iff,
    Option.pure_def, Option.some.injEq] at h
  obtain ⟨_, henabled, _, hpemCertPath, _, hpemKeyPath, _, hpemKeyPassphrase, _,
    htokenAuthKeyPath, _, htokenAuthKeyId, _, htokenAuthTeamId, _, hsandbox, _, htopic, _,
    hapnsId, _, hendpoint, _, hcall, rfl⟩ := h
  cases k with
  | call k => exact k.get_ofEntries? hcall
  | _ => assumption

theorem AndroidKey.get_ofEntries? {d s : AndroidSettings} (h : d.ofEntries? es = some s)
    (k : AndroidKey) : get? es k.name k.kind.ofNode? (k.get d) = some (k.get s) := by
  simp only [AndroidSettings.ofEntries?, Option.bind_eq_bind, Option.bind_eq_some_iff,
    Option.pure_def, Option.some.injEq] at h
  obtain ⟨_, henabled, _, hapikey, _, huseFcm, _, hendpoint, _, hcall, rfl⟩ := h
  cases k with
  | call k => exact k.get_ofEntries? hcall
  | _ => assumption

theorem FcmV1Key.get_ofEntries? {d s : FcmV1Settings} (h : d.ofEntries? es = some s)
    (k : FcmV1Key) : get? es k.name k.kind.ofNode? (k.get d) = some (k.get s) := by
  simp only [FcmV1Settings.ofEntries?, Option.bind_eq_bind, Option.bind_eq_some_iff,
    Option.pure_def, Option.some.injEq] at h
  obtain ⟨_, henabled, _, hprojectId, _, hcredentialsFile, _, haccessToken, _, hendpoint, _,
    hcall, rfl⟩ := h
  cases k with
  | call k => exact k.get_ofEntries? hcall
  | _ => assumption

end sections

/-! ## Documents -/

namespace Setting

end Setting
end PushRelay
