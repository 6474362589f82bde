/-! The delivery targets and one value for each of them. -/
namespace PushRelay

inductive Platform where
  | ios
  | android
  | fcmV1
  deriving DecidableEq, Repr, Inhabited

namespace Platform

def all : List Platform := [ios, android, fcmV1]

def code : Platform → Int64
  | ios => 1
  | android => 2
  | fcmV1 => 3

def ofCode? (n : Int64) : Option Platform := all.find? (·.code == n)

def name : Platform → String
  | ios => "ios"
  | android => "android"
  | fcmV1 => "fcm_v1"

def ofName? (s : String) : Option Platform := all.find? (·.name == s)

theorem ofCode?_code (p : Platform) : ofCode? p.code = some p := by cases p <;> decide

theorem ofName?_name (p : Platform) : ofName? p.name = some p := by cases p <;> decide

end Platform

structure PerPlatform (α : Type) where
  ios : α
  android : α
  fcmV1 : α
  deriving DecidableEq, Repr, Inhabited

namespace PerPlatform
variable {α : Type}

def const (a : α) : PerPlatform α := ⟨a, a, a⟩

def get (t : PerPlatform α) : Platform → α
  | .ios => t.ios
  | .android => t.android
  | .fcmV1 => t.fcmV1

def modify (t : PerPlatform α) (p : Platform) (f : α → α) : PerPlatform α :=
  match p with
  | .ios => { t with ios := f t.ios }
  | .android => { t with android := f t.android }
  | .fcmV1 => { t with fcmV1 := f t.fcmV1 }

@[simp] theorem get_const (a : α) (p : Platform) : (const a).get p = a := by cases p <;> rfl

@[simp] theorem get_modify (t : PerPlatform α) (p q : Platform) (f : α → α) :
    (t.modify p f).get q = if q = p then f (t.get q) else t.get q := by
  cases p <;> cases q <;> rfl

end PerPlatform
end PushRelay
