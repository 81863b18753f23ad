import PluginDiscovery.Types.Catalog

/-!
# Sample catalogs

Catalogs to try discovery on. `Samples.ecosystem` declares caches and transports, some of them
broken on purpose: `vendor.redis.RedisCache` requires a client that is not declared,
`vendor.shadow.ShadowCache` shares its name with `spindle.cache.MemoryCache`, and
`vendor.env.EnvSource` implements an interface without a marker.
-/

namespace PluginDiscovery.Samples

/-- The extension point for caches. -/
def cache : String := "spindle.cache.Cache"

/-- An interface that extends it and carries no marker itself. -/
def localCache : String := "spindle.cache.LocalCache"

/-- The extension point for transports. -/
def transport : String := "spindle.messaging.Transport"

/-- An interface that is no extension point. -/
def configSource : String := "spindle.config.ConfigSource"

/-- A class that other caches extend. -/
def abstractCache : String := "spindle.cache.AbstractCache"

/-- The types of `ecosystem`. -/
def ecosystemTypes : List TypeDecl :=
  [{ name := cache, kind := .interface,
     marker := some
      { name := "cache", description := "Key/value cache provider", version := "1.0.0" } },
   { name := localCache, kind := .interface, interfaces := [cache] },
   { name := transport, kind := .interface, marker := some { name := "transport" } },
   { name := configSource, kind := .interface },
   { name := abstractCache, kind := .abstractClass, interfaces := [localCache],
     marker := some { name := "abstract-cache" } },
   { name := "spindle.cache.MemoryCache", kind := .concreteClass, interfaces := [localCache],
     marker := some { name := "memory", version := "2.1.0" } },
   { name := "spindle.cache.TieredCache", kind := .concreteClass, superclass := some abstractCache,
     marker := some { name := "tiered", enabled := false } },
   { name := "vendor.redis.RedisCache", kind := .concreteClass, interfaces := [cache],
     requires := ["vendor.redis.native.Client"], marker := some { name := "redis" } },
   { name := "spindle.messaging.InProcessTransport", kind := .concreteClass,
     interfaces := [transport], marker := some { name := "in-process" } },
   { name := "vendor.shadow.ShadowCache", kind := .concreteClass, interfaces := [cache],
     marker := some { name := "memory" } },
   { name := "vendor.env.EnvSource", kind := .concreteClass, interfaces := [configSource],
     marker := some { name := "env" } },
   { name := "spindle.util.Helper", kind := .concreteClass }]

/-- Caches and transports. -/
def ecosystem : Catalog := .ofList ecosystemTypes

/-- An implementation of the cache extension point under a name, numbered. -/
def namedImplementation (name : String) (number : Nat) : TypeDecl where
  name := s!"acme.Impl{number}"
  kind := .concreteClass
  interfaces := [cache]
  marker := some { name }

/-- The cache extension point and one implementation of it for each name. -/
def namedImplementations (names : List String) : Catalog :=
  .ofList ({ name := cache, kind := .interface, marker := some { name := "cache" } }
    :: names.zipIdx.map fun (name, number) => namedImplementation name number)

end PluginDiscovery.Samples
