import LifeEngine.Types.Pipeline

/-!
# The storage backend trait

`StorageBackend` is the interface through which plugins and the auth module reach
the data layer.  What a call draws from its surroundings is passed explicitly.
-/

namespace LifeEngine.Storage

/-- What one call draws: a new UUID, the time, and random bytes. -/
structure Draw where
  uuid : Uuid
  now : Timestamp
  nonce : Bytes

/-- Over states of type `σ`. An error is given by its text. -/
structure StorageBackend (σ : Type) where
  execute : Draw → σ → StorageQuery → Except String (List PipelineMessage) × σ
  mutate : Draw → σ → StorageMutation → Except String Unit × σ

end LifeEngine.Storage
