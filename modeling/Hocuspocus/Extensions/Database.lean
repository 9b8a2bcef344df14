import Hocuspocus.Document.State

/-!
# Loading and storing (`extensions/database.rs`, `extensions/sqlite.rs`)

`Document::spawn` runs the load hooks on a fresh document before the actor
exists; their errors are logged and dropped, so `Document.load` always
returns a document. The `Database` extension is one such hook, over whatever
its `Storage` answers. `SqliteStorage::fetch` is the bundled storage: it
reports an error only if preparing the statement fails, and answers as for a
new document whenever the row cannot be read.
-/

namespace Hocuspocus

variable {Y : Yrs}

/-- What `Storage::fetch` answers; `none` is a new document. -/
abbrev Fetched := Except String (Option Bytes)

/-- An extension's `on_load_document` or `after_load_document`: the document
it leaves behind, and its result. -/
abbrev LoadHook (Y : Yrs) := Y.Doc → Y.Doc × HookResult

/-- `SqliteStorage::fetch`, from the outcomes of `prepare_cached` and
`query_row`; a missing row is an error of the latter. -/
def SqliteStorage.fetch (prepared : Except String Unit) (row : Except String Bytes) : Fetched :=
  match prepared with
  | .error e => .error e
  | .ok () => .ok row.toOption

/-- `Database::on_load_document`; the text of the `yrs` error that ends the
messages is left out. -/
def Database.onLoadDocument (fetched : Fetched) : LoadHook Y := fun doc =>
  match fetched with
  | .ok (some state) =>
    match Y.decodeUpdate state with
    | none => (doc, .error ⟨"invalid stored update: ", none⟩)
    | some update =>
      let applied := Y.applyUpdate doc update
      (applied.1, if applied.2 then .ok () else .error ⟨"apply stored update: ", none⟩)
  | .ok none => (doc, .ok ())
  | .error e => (doc, .error ⟨e, none⟩)

/-- The hook loops of `Document::spawn`. -/
def Document.load (onLoad afterLoad : List (LoadHook Y)) : Y.Doc :=
  (onLoad ++ afterLoad).foldl (fun doc hook => (hook doc).1) Y.newDoc

/-- The default `after_load_document`. -/
def Extension.afterLoadDocument : LoadHook Y := fun doc => (doc, .ok ())

/-- The document of a server whose one extension is a `Database`. -/
def Database.load (fetched : Fetched) : Y.Doc :=
  Document.load [Database.onLoadDocument fetched] [Extension.afterLoadDocument]

theorem Database.load_eq (fetched : Fetched) :
    Database.load fetched = (Database.onLoadDocument fetched Y.newDoc).1 := rfl

/-- A `Database` extension whose load succeeded either found nothing, or
decoded the row and applied it. -/
theorem Database.onLoadDocument_ok {fetched : Fetched} {doc doc' : Y.Doc}
    (h : Database.onLoadDocument fetched doc = (doc', .ok ())) :
    (fetched = .ok none ∧ doc' = doc) ∨
    ∃ state update, fetched = .ok (some state) ∧ Y.decodeUpdate state = some update ∧
      (Y.applyUpdate doc update).2 = true ∧ doc' = (Y.applyUpdate doc update).1 := by
  unfold Database.onLoadDocument at h
  split at h
  next state =>
    split at h
    next => cases h
    next update hdec =>
      dsimp only at h
      cases hok : (Y.applyUpdate doc update).2 with
      | false =>
        rw [hok] at h
        cases h
      | true =>
        rw [hok] at h
        exact Or.inr ⟨state, update, rfl, hdec, hok, (congrArg Prod.fst h).symm⟩
  next => exact Or.inl ⟨rfl, (congrArg Prod.fst h).symm⟩
  next => cases h

end Hocuspocus
