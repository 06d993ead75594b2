import PullNotices.Program

/-!
Stores: a history in a file. Nothing is kept between two operations; each reads the whole file
again, and one that changes the history writes the whole file anew, unless its text stays the same.
-/
namespace PullNotices

structure Store where
  path : Path
  encode : History → Text
  decode : Text → Except History.DecodeError History.Decoded

namespace Store

def duplicatesLog (count : Nat) : List Log.Line :=
  if count = 0 then []
  else [⟨.warning, "History holds " ++ Text.ofNat count ++
    " duplicate entries; keeping the last of each"⟩]

def decoded (store : Store) (t : Text) : Program History :=
  match store.decode t with
  | .error e => .fail (.undecodable e)
  | .ok found => do
    Program.note (duplicatesLog found.duplicates)
    return found.history

def current (store : Store) : Program History := do
  let text ← Program.ask (.read store.path)
  store.decoded text

/-- Puts entries into the history, one after another. No entries leave the file alone. -/
def putAll (store : Store) : List Entry → Program Unit
  | [] => return
  | es => do
    let old ← Program.ask (.read store.path)
    let history ← store.decoded old
    let new := store.encode (history.putAll es)
    if new = old then
      Program.note [⟨.debug, store.path.display ++ " unchanged, skipping write"⟩]
    else
      Program.ask (.replace store.path new)
      Program.note [⟨.debug, "Wrote " ++ Text.ofNat es.length ++ " item(s) to " ++ store.path.display⟩]

def put (store : Store) (e : Entry) : Program Unit := store.putAll [e]

structure Plan where
  name : Text
  encode : History → Text
  decode : Text → Except History.DecodeError History.Decoded

def Plan.history (name : Text) : Plan := ⟨name, History.encode, History.decode⟩

def Plan.openIn (plan : Plan) (directory : Path) : Program Store := do
  Program.ask (.directory directory)
  return ⟨directory.join (Path.ofText plan.name), plan.encode, plan.decode⟩

/-- A plan that may still lack a direction of its format. -/
structure Recipe where
  name : Text
  encode : Option (History → Text)
  decode : Option (Text → Except History.DecodeError History.Decoded)

namespace Recipe

def bare (name : Text) : Recipe := ⟨name, none, none⟩

def withEncoder (r : Recipe) (encode : History → Text) : Recipe := { r with encode := some encode }

def withDecoder (r : Recipe)
    (decode : Text → Except History.DecodeError History.Decoded) : Recipe :=
  { r with decode := some decode }

def isBare (r : Recipe) : Bool := r.encode.isNone && r.decode.isNone

structure Incomplete where
  name : Text
  deriving DecidableEq, Repr

def Incomplete.message (e : Incomplete) : Text :=
  "storage " ++ Text.quoted e.name ++ " needs both a serializer and a deserializer"

def plan (r : Recipe) : Except Incomplete Plan :=
  match r.encode, r.decode with
  | some encode, some decode => .ok ⟨r.name, encode, decode⟩
  | _, _ => .error ⟨r.name⟩

end Recipe
end Store
end PullNotices
